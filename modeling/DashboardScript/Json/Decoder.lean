import DashboardScript.Json.Reader.Found
import DashboardScript.Json.Value

namespace DashboardScript.Json

-- Reads a value of one type, with so many levels of arrays and objects left to open.
abbrev Decoder (α : Type) := (room : Nat) → Reader α

namespace Decoder

-- The levels of arrays and objects that a text may nest.
def maxDepth : Nat := 127

-- Opens one more level, whose bracket comes next.
def nested {α : Type} (inner : Decoder α) : Decoder α
  | 0 => Reader.failNext .tooDeep
  | room + 1 => inner room

def text : Decoder String := fun _ => do
  match ← Reader.next with
  | .string s => pure s
  | found => Reader.refuse found "a string"

def flag : Decoder Bool := fun _ => do
  match ← Reader.next with
  | .boolean b => pure b
  | found => Reader.refuse found "a boolean"

-- A whole number of 32 bits. Other whole numbers have the wrong value, reals the wrong type.
def word : Decoder UInt32 := fun _ => do
  match ← Reader.next with
  | .number (.integer n) =>
    if 0 ≤ n ∧ n ≤ 0xffffffff then pure (UInt32.ofNat n.toNat)
    else Reader.fail (.invalidValue (.number (.integer n)) "u32")
  | found => Reader.refuse found "u32"

-- Any number. An array or an object is entered before it is refused.
def number : Decoder Number := fun room => do
  match ← Reader.next with
  | .number n => pure n
  | .sequence =>
    nested (fun _ => do
      Reader.advance
      Reader.failList (.invalidType .sequence "a JSON number")) room
  | .map =>
    nested (fun _ => do
      Reader.advance
      Reader.failObject (.invalidType .map "a JSON number")) room
  | found => Reader.refuse found "a JSON number"

-- Null stands for absence, and is told by its first letter.
def optional {α : Type} (value : Decoder α) : Decoder (Option α) := fun room => do
  if (← Reader.peekToken) = some 'n' then do
    let _ ← Reader.next
    pure none
  else some <$> value room

def list {α : Type} (item : Decoder α) : Decoder (List α) := fun room => do
  match ← Reader.next with
  | .sequence => nested (fun room => Reader.bracketed (item room)) room
  | found => Reader.refuse found "a sequence"

-- A scalar as a value, an array or an object by the reader given for it.
def valueBy (array object : Reader Value) : Reader Value := do
  match ← Reader.next with
  | .null => pure .null
  | .boolean b => pure (.boolean b)
  | .number n => pure (.number n)
  | .string s => pure (.string s)
  | .sequence => array
  | .map => object

-- A value of any shape. Of members with the same key the last one stays.
def any : Decoder Value
  | 0 => valueBy (Reader.failNext .tooDeep) (Reader.failNext .tooDeep)
  | room + 1 =>
    valueBy (Value.array <$> Reader.bracketed (any room))
      (Value.object <$> Reader.braced (fun members key => do
        Reader.colon
        let value ← any room
        pure (insertMember key value members)) [])

-- Reads a whole text.
def decode {α : Type} (decoder : Decoder α) (text : String) : Except Error α :=
  Reader.parse (do
    let a ← decoder maxDepth
    Reader.finish
    pure a) text

end Decoder

end DashboardScript.Json
