import DashboardScript.Json.Number
import DashboardScript.Text.Quoted

namespace DashboardScript.Json

-- A value of no fixed shape. The members of an object are sorted by key, one for each key.
inductive Value where
  | null
  | boolean (b : Bool)
  | number (n : Number)
  | string (s : String)
  | array (items : List Value)
  | object (members : List (String × Value))
  deriving Inhabited

-- Adds a member at its place. A key that is there already gets the new value.
def insertMember {α : Type} (key : String) (value : α) : List (String × α) → List (String × α)
  | [] => [(key, value)]
  | (k, v) :: rest =>
    if key < k then (key, value) :: (k, v) :: rest
    else if key = k then (key, value) :: rest
    else (k, v) :: insertMember key value rest

-- A control character as a \u escape of four digits.
def controlEscape (c : Char) : String :=
  let digits := Text.hexDigits c.toNat
  "\\u" ++ "".pushn '0' (4 - digits.length) ++ digits

-- Quotes, backslashes and controls are escaped, everything else is written as it is.
def escaped (c : Char) : String :=
  match c with
  | '"' => "\\\""
  | '\\' => "\\\\"
  | '\x08' => "\\b"
  | '\x0c' => "\\f"
  | '\n' => "\\n"
  | '\r' => "\\r"
  | '\t' => "\\t"
  | c => if c < ' ' then controlEscape c else c.toString

def stringText (s : String) : String :=
  "\"" ++ String.join (s.toList.map escaped) ++ "\""

namespace Value

mutual

-- The value without any blank.
def compact : Value → String
  | .null => "null"
  | .boolean b => if b then "true" else "false"
  | .number n => n.text
  | .string s => stringText s
  | .array items => "[" ++ ",".intercalate (compactItems items) ++ "]"
  | .object members => "\x7b" ++ ",".intercalate (compactMembers members) ++ "\x7d"

def compactItems : List Value → List String
  | [] => []
  | v :: rest => v.compact :: compactItems rest

def compactMembers : List (String × Value) → List String
  | [] => []
  | (k, v) :: rest => (stringText k ++ ":" ++ v.compact) :: compactMembers rest

end

def member? (key : String) : Value → Option Value
  | .object members => members.lookup key
  | _ => none

end Value

end DashboardScript.Json
