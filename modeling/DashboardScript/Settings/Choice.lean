import DashboardScript.Json.Failure
import DashboardScript.Json.Value
import DashboardScript.Settings

namespace DashboardScript

-- A setting with two possible values, of which the first is the default.
structure Choice (α : Type) where
  name : String
  first : String × α
  second : String × α

namespace Choice

-- The value of exactly this name.
def ofName? {α : Type} (choice : Choice α) (name : String) : Option α :=
  if name = choice.first.1 then some choice.first.2
  else if name = choice.second.1 then some choice.second.2
  else none

-- Why a value does not settle a choice.
inductive Error where
  | unknownName (name first second : String)
  | notOneKey
  | valueBehindKey (found : Json.Found)
  | notNamed (found : Json.Found)
  deriving DecidableEq

def Error.message : Error → String
  | .unknownName name first second =>
    "unknown variant `" ++ name ++ "`, expected `" ++ first ++ "` or `" ++ second ++ "`"
  | .notOneKey => "invalid value: map, expected map with a single key"
  | .valueBehindKey found => "invalid type: " ++ found.phrase ++ ", expected unit"
  | .notNamed found => "invalid type: " ++ found.phrase ++ ", expected string or map"

def named {α : Type} (choice : Choice α) (name : String) : Except Error α :=
  match choice.ofName? name with
  | some a => .ok a
  | none => .error (.unknownName name choice.first.1 choice.second.1)

def foundIn : Json.Value → Json.Found
  | .null => .null
  | .boolean b => .boolean b
  | .number n => .number n
  | .string s => .string s
  | .array _ => .sequence
  | .object _ => .map

-- The choice made by a name, or by an object with the name as its one key and null behind it.
def ofJson {α : Type} (choice : Choice α) : Json.Value → Except Error α
  | .string name => choice.named name
  | .object [(name, value)] => do
    let a ← choice.named name
    match value with
    | .null => .ok a
    | value => .error (.valueBehindKey (foundIn value))
  | .object _ => .error .notOneKey
  | value => .error (.notNamed (foundIn value))

def literalStyle : Choice Script.LiteralStyle :=
  ⟨"LiteralStyle", ("quoted", .quoted), ("bare", .bare)⟩

def unsupportedPolicy : Choice UnsupportedPolicy :=
  ⟨"UnsupportedPanelPolicy", ("abort", .abort), ("skip", .skip)⟩

def titleSource : Choice TitleSource :=
  ⟨"TitleSource", ("fixed", .fixed), ("dashboard", .dashboard)⟩

end Choice

end DashboardScript
