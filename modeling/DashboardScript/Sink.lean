namespace DashboardScript

-- A destination with room for so many bytes.
structure Sink where
  limit : Nat
  bytes : ByteArray := ByteArray.empty

-- Whether everything fitted.
inductive Delivery where
  | whole
  | cut
  deriving DecidableEq

def Delivery.message? : Delivery → Option String
  | .whole => none
  | .cut => some "failed to write whole buffer"

-- Writes a script as far as there is room.
def Sink.write (sink : Sink) (script : String) : Delivery × Sink :=
  let content := script.toUTF8
  let room := sink.limit - sink.bytes.size
  if content.size ≤ room then (.whole, { sink with bytes := sink.bytes ++ content })
  else (.cut, { sink with bytes := sink.bytes ++ content.extract 0 room })

end DashboardScript
