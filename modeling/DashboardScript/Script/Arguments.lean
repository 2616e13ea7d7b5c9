import DashboardScript.Json.Number

namespace DashboardScript.Script

-- How flags and numbers are written: in quotes as texts are, or bare.
inductive LiteralStyle where
  | quoted
  | bare
  deriving DecidableEq

-- The value of an argument.
inductive Literal where
  | text (s : String)
  | keyword (s : String)
  | flag (b : Bool)
  | number (n : Json.Number)
  deriving DecidableEq

-- A text between single quotes, as it is. Nothing in it is escaped.
def quoted (s : String) : String := "'" ++ s ++ "'"

namespace Literal

-- An empty text or keyword counts as no value.
def isPresent : Literal → Bool
  | .text s => s != ""
  | .keyword s => s != ""
  | .flag _ => true
  | .number _ => true

def plain : Literal → String
  | .text s => s
  | .keyword s => s
  | .flag b => if b then "true" else "false"
  | .number n => n.text

-- Whether the style decides on the quotes.
def isStyled : Literal → Bool
  | .text _ => false
  | .keyword _ => false
  | .flag _ => true
  | .number _ => true

def render (style : LiteralStyle) (literal : Literal) : String :=
  if literal.isStyled && style == .bare then literal.plain else quoted literal.plain

end Literal

-- The named arguments of a call in the order in which they are given, each followed by a comma.
structure Arguments where
  style : LiteralStyle
  written : String
  deriving DecidableEq

namespace Arguments

def empty (style : LiteralStyle) : Arguments := ⟨style, ""⟩

def isEmpty (args : Arguments) : Bool := args.written == ""

def add (args : Arguments) (name : String) (value : Option Literal) : Arguments :=
  match value.filter Literal.isPresent with
  | none => args
  | some literal =>
    { args with written := args.written ++ name ++ "=" ++ literal.render args.style ++ "," }

def text (args : Arguments) (name : String) (value : Option String) : Arguments :=
  args.add name (value.map .text)

def keyword (args : Arguments) (name : String) (value : Option String) : Arguments :=
  args.add name (value.map .keyword)

def flag (args : Arguments) (name : String) (value : Option Bool) : Arguments :=
  args.add name (value.map .flag)

def number (args : Arguments) (name : String) (value : Option Json.Number) : Arguments :=
  args.add name (value.map .number)

end Arguments

end DashboardScript.Script
