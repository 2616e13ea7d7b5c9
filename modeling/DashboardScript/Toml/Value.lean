import DashboardScript.Binary64

namespace DashboardScript.Toml

-- Why a number has no value although it is written as one.
inductive NumberFault where
  | tooLarge
  | tooSmall
  | noDigits
  | strangeDigit
  | overflow
  deriving DecidableEq

def NumberFault.message : NumberFault → String
  | .tooLarge => "number too large to fit in target type"
  | .tooSmall => "number too small to fit in target type"
  | .noDigits => "cannot parse integer from empty string"
  | .strangeDigit => "invalid digit found in string"
  | .overflow => "floating-point number overflowed"

-- A value of a TOML document. A date or a time is kept as its text in a normal form, and the entries
-- of a table stand in the order of their keys.
inductive Value where
  | string (s : String)
  | integer (n : Int)
  | real (x : Binary64)
  | infinity (negative : Bool)
  | notANumber
  | unfit (fault : NumberFault)
  | boolean (b : Bool)
  | moment (text : String)
  | array (items : List Value)
  | table (entries : List (String × Value))
  deriving Inhabited

-- What a value is called when it stands in the way of another.
def Value.kind : Value → String
  | .string _ => "string"
  | .integer _ => "integer"
  | .real _ | .infinity _ | .notANumber | .unfit .overflow => "float"
  | .unfit _ => "integer"
  | .boolean _ => "boolean"
  | .moment _ => "datetime"
  | .array _ => "array"
  | .table _ => "inline table"

end DashboardScript.Toml
