import DashboardScript.Json.Number
import DashboardScript.Text.Quoted
import DashboardScript.Text.Utf8

namespace DashboardScript.Json

open Text (utf8Length)

-- What a text can end in the middle of.
inductive Enclosure where
  | value
  | string
  | list
  | object
  deriving DecidableEq

def Enclosure.phrase : Enclosure → String
  | .value => "a value"
  | .string => "a string"
  | .list => "a list"
  | .object => "an object"

-- What stands where something else was expected.
inductive Found where
  | null
  | boolean (b : Bool)
  | number (n : Number)
  | string (s : String)
  | sequence
  | map
  deriving DecidableEq

def Found.phrase : Found → String
  | .null => "null"
  | .boolean b => "boolean `" ++ (if b then "true" else "false") ++ "`"
  | .number (.integer n) => "integer `" ++ (Number.integer n).text ++ "`"
  | .number (.real x) => "floating point `" ++ (Number.real x).text ++ "`"
  | .string s => "string " ++ Text.quoted s
  | .sequence => "sequence"
  | .map => "map"

-- Why a text is refused.
inductive Cause where
  | ended (inside : Enclosure)
  | expectedColon
  | expectedItemOrEnd
  | expectedMemberOrEnd
  | expectedWord
  | expectedValue
  | invalidEscape
  | invalidNumber
  | numberOutOfRange
  | keyNotString
  | loneSurrogate
  | brokenSurrogatePair
  | controlCharacter
  | trailingComma
  | trailingCharacters
  | tooDeep
  | invalidType (found : Found) (expected : String)
  | invalidValue (found : Found) (expected : String)
  | invalidLength (length : Nat) (expected : String)
  | missingField (key : String)
  | duplicateField (key : String)
  deriving DecidableEq

def Cause.message : Cause → String
  | .ended inside => "EOF while parsing " ++ inside.phrase
  | .expectedColon => "expected `:`"
  | .expectedItemOrEnd => "expected `,` or `]`"
  | .expectedMemberOrEnd => "expected `,` or `\x7d`"
  | .expectedWord => "expected ident"
  | .expectedValue => "expected value"
  | .invalidEscape => "invalid escape"
  | .invalidNumber => "invalid number"
  | .numberOutOfRange => "number out of range"
  | .keyNotString => "key must be a string"
  | .loneSurrogate => "lone leading surrogate in hex escape"
  | .brokenSurrogatePair => "unexpected end of hex escape"
  | .controlCharacter => "control character (\\u0000-\\u001F) found while parsing a string"
  | .trailingComma => "trailing comma"
  | .trailingCharacters => "trailing characters"
  | .tooDeep => "recursion limit exceeded"
  | .invalidType found expected => "invalid type: " ++ found.phrase ++ ", expected " ++ expected
  | .invalidValue found expected => "invalid value: " ++ found.phrase ++ ", expected " ++ expected
  | .invalidLength length expected =>
    "invalid length " ++ toString length ++ ", expected " ++ expected
  | .missingField key => "missing field `" ++ key ++ "`"
  | .duplicateField key => "duplicate field `" ++ key ++ "`"

-- The text is cut short, it breaks the grammar, or it does not fit the records.
inductive Category where
  | truncated
  | syntactic
  | schematic
  deriving DecidableEq

def Cause.category : Cause → Category
  | .ended _ => .truncated
  | .invalidType .. | .invalidValue .. | .invalidLength .. | .missingField _ | .duplicateField _ =>
    .schematic
  | _ => .syntactic

-- A refusal by a reader, placed by the number of bytes that it had not taken yet. With `ahead` the
-- offence is the next byte. Counting from the end keeps a failure the same whatever stands before.
structure Failure where
  cause : Cause
  unread : Nat
  ahead : Bool
  deriving DecidableEq

-- How many bytes at the end of the text lie behind the offence. At the end of the text there is no
-- next byte, and nothing lies behind.
def Failure.behind (f : Failure) : Nat := if f.ahead then f.unread - 1 else f.unread

structure Position where
  line : Nat
  column : Nat
  deriving DecidableEq

-- Moves a position over so many bytes of a text. The column counts bytes, also within a character.
def Position.moved (p : Position) : (count : Nat) → List Char → Position
  | _, [] => p
  | 0, _ => p
  | count + 1, c :: rest =>
    if c = '\n' then moved ⟨p.line + 1, 0⟩ count rest
    else if count + 1 < c.utf8Size then ⟨p.line, p.column + count + 1⟩
    else moved ⟨p.line, p.column + c.utf8Size⟩ (count + 1 - c.utf8Size) rest

structure Error where
  cause : Cause
  position : Position
  deriving DecidableEq

def Error.message (e : Error) : String :=
  e.cause.message ++ " at line " ++ toString e.position.line ++ " column " ++
    toString e.position.column

def Failure.error (f : Failure) (text : List Char) : Error :=
  ⟨f.cause, Position.moved ⟨1, 0⟩ (utf8Length text - f.behind) text⟩

end DashboardScript.Json
