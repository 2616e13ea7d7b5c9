import DashboardScript.Binary64.Layout

namespace DashboardScript.Json

-- A number as read: a whole number of at most 64 bits keeps its digits, any other is binary64.
inductive Number where
  | integer (n : Int)
  | real (x : Binary64)
  deriving DecidableEq

-- Numbers between 0.00001 and 10 ^ 16 have no exponent, and a real always shows a fraction or one.
def Number.layout : Binary64.Layout := ⟨some (-5, 15), true, .even⟩

def Number.text : Number → String
  | .integer n => toString n
  | .real x => layout.text x

end DashboardScript.Json
