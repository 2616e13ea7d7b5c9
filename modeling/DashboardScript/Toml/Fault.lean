import DashboardScript.Text.Utf8

namespace DashboardScript.Toml

-- The kinds of text between quotes.
inductive TextKind where
  | basic
  | verbatim
  | longBasic
  | longVerbatim
  deriving DecidableEq

namespace TextKind

def isVerbatim : TextKind → Bool
  | .verbatim | .longVerbatim => true
  | _ => false

-- Whether it may have several lines.
def isLong : TextKind → Bool
  | .longBasic | .longVerbatim => true
  | _ => false

def quote : TextKind → String
  | .basic => "\""
  | .verbatim => "'"
  | .longBasic => "\"\"\""
  | .longVerbatim => "'''"

def phrase : TextKind → String
  | .basic => "basic string"
  | .verbatim => "literal string"
  | .longBasic => "multi-line basic string"
  | .longVerbatim => "multi-line literal string"

end TextKind

-- What is put between brackets.
inductive Enclosure where
  | header
  | elementHeader
  | array
  | inlineTable
  deriving DecidableEq

namespace Enclosure

def phrase : Enclosure → String
  | .header => "table"
  | .elementHeader => "array table"
  | .array => "array"
  | .inlineTable => "inline table"

def opening : Enclosure → String
  | .header | .elementHeader | .array => "["
  | .inlineTable => "\x7b"

def closing : Enclosure → String
  | .header | .elementHeader | .array => "]"
  | .inlineTable => "\x7d"

-- What a comma separates.
def member : Enclosure → String
  | .inlineTable => "key"
  | _ => "value"

def members : Enclosure → String
  | .inlineTable => "key-value pairs"
  | _ => "array elements"

end Enclosure

-- What can be wrong with a document.
inductive Flaw where
  -- with its layout
  | keyWithoutValue
  | missingKey
  | restOfLine
  | unopened (enclosure : Enclosure)
  | unclosed (enclosure : Enclosure)
  | extraComma (enclosure : Enclosure)
  | missingComma (enclosure : Enclosure)
  | missingEquals
  | extraEquals
  | tooDeep
  | loneReturn
  | commentCharacter
  -- with a key or its place
  | emptyKey
  | keyCharacter
  | longKey (kind : TextKind)
  | keyTooLong
  | repeatedKey
  | notTable (kind : String)
  -- with a text
  | textQuotes (kind : TextKind)
  | textCharacter (kind : TextKind)
  | unknownEscape
  | codeLength
  | codeValue
  -- with a word
  | unquoted
  | openingQuote (quote : String)
  | unknownWord (kind meant : String)
  | strayUnderscore
  | leadingZero
  | noDigits (part : String)
  | strayInReal
  | repeatedSign
  | signedBase
  | unknownBase (base : String)
  | strayInBase (base : String)
  | invalidMoment
  deriving DecidableEq

namespace Flaw

-- What may stand in a text of a kind.
def characters : TextKind → String
  | .basic => "non-double-quote visible characters, `\\`"
  | .verbatim => "non-single-quote visible characters"
  | .longBasic => "printable characters, `\\`"
  | .longVerbatim => "non-single-quote characters"

def keyCharacters : String := "letters, numbers, `-`, `_`"

def escapes : String := "`b`, `e`, `f`, `n`, `r`, `\\`, `\"`, `x`, `u`, `U`"

def message : Flaw → String
  | .keyWithoutValue => "key with no value, expected `=`"
  | .missingKey => "missing key, expected key"
  | .restOfLine => "unexpected key or value, expected newline, `#`"
  | .unopened enclosure =>
    "missing " ++ enclosure.phrase ++ " opening, expected `" ++ enclosure.opening ++ "`"
  | .unclosed enclosure =>
    "unclosed " ++ enclosure.phrase ++ ", expected `" ++ enclosure.closing ++ "`"
  | .extraComma enclosure =>
    "extra comma in " ++ enclosure.phrase ++ ", expected " ++ enclosure.member
  | .missingComma enclosure => "missing comma between " ++ enclosure.members ++ ", expected `,`"
  | .missingEquals => "missing assignment between key-value pairs, expected `=`"
  | .extraEquals => "extra `=`, expected nothing"
  | .tooDeep => "cannot recurse further; max recursion depth met"
  | .loneReturn => "carriage return must be followed by newline, expected newline"
  | .commentCharacter => "invalid comment character, expected printable characters"
  | .emptyKey => "unquoted keys cannot be empty, expected " ++ keyCharacters
  | .keyCharacter => "invalid unquoted key, expected " ++ keyCharacters
  | .longKey kind =>
    "keys cannot be " ++ kind.phrase ++ "s, expected basic string, literal string"
  | .keyTooLong => "recursion limit"
  | .repeatedKey => "duplicate key"
  | .notTable kind => "cannot extend value of type " ++ kind ++ " with a dotted key"
  | .textQuotes kind => "invalid " ++ kind.phrase ++ ", expected `" ++ kind.quote ++ "`"
  | .textCharacter kind => "invalid " ++ kind.phrase ++ ", expected " ++ characters kind
  | .unknownEscape => "missing escaped value, expected " ++ escapes
  | .codeLength => "too few unicode value digits, expected unicode hexadecimal value"
  | .codeValue => "invalid value, expected unicode hexadecimal value"
  | .unquoted => "string values must be quoted, expected literal string"
  | .openingQuote quote => "missing opening quote, expected `" ++ quote ++ "`"
  | .unknownWord kind meant => "invalid " ++ kind ++ ", expected `" ++ meant ++ "`"
  | .strayUnderscore => "`_` may only go between digits, expected nothing"
  | .leadingZero => "unexpected leading zero, expected nothing"
  | .noDigits part => "invalid " ++ part ++ ", expected digits"
  | .strayInReal => "invalid float, expected nothing"
  | .repeatedSign => "redundant numeric sign, expected nothing"
  | .signedBase => "integers with a radix cannot be signed, expected nothing"
  | .unknownBase base => "radix must be lowercase, expected `0" ++ base ++ "`"
  | .strayInBase base => "invalid " ++ base ++ " integer number, expected digits"
  | .invalidMoment => "invalid datetime"

end Flaw

-- Where something is wrong: the text from there on, and how many bytes of it are meant.
structure Place where
  unread : List Char
  width : Nat

-- Why a text is no document. What concerns a document as a whole has no place.
structure Fault where
  flaw : Flaw
  place : Option Place

-- A flaw in a piece of a document. `left` counts the characters of the piece from the flaw on.
structure Blemish where
  flaw : Flaw
  left : Nat
  width : Nat
  deriving DecidableEq

def Fault.placed (flaw : Flaw) (unread : List Char) (width : Nat) : Fault := ⟨flaw, some ⟨unread, width⟩⟩

-- A flaw of a whole piece.
def Blemish.of (flaw : Flaw) (piece : List Char) : Blemish :=
  ⟨flaw, piece.length, Text.utf8Length piece⟩

-- A flaw between two characters, before the rest of a piece.
def Blemish.before (flaw : Flaw) (rest : List Char) : Blemish := ⟨flaw, rest.length, 0⟩

-- The flaw of the first character of the rest of a piece.
def Blemish.atFirst (flaw : Flaw) (rest : List Char) : Blemish := ⟨flaw, rest.length, 1⟩

-- Places the flaw of a piece that stands at the start of one text and is followed by the other.
def Blemish.fault (start behind : List Char) (blemish : Blemish) : Fault :=
  Fault.placed blemish.flaw (start.drop (start.length - behind.length - blemish.left)) blemish.width

namespace Place

-- The line of a place and its column, both from zero on. At the end of a text the last character
-- counts as the line, also where it is a line end.
def position (text : List Char) (place : Place) : Nat × Nat :=
  let before := text.take (text.length - place.unread.length)
  let past := if place.unread.isEmpty && !text.isEmpty then 1 else 0
  let before := if past = 1 then before.dropLast else before
  (before.count '\n', (before.reverse.takeWhile (· != '\n')).length + past)

-- Drops so many lines.
def dropLines : (count : Nat) → List Char → List Char
  | 0, text => text
  | count + 1, text => dropLines count (text.dropWhile (· != '\n')).tail

-- Shows the line of a place and points at it.
def excerpt (text : List Char) (place : Place) : String :=
  let (line, column) := place.position text
  let content := (dropLines line text).takeWhile (· != '\n')
  let number := toString (line + 1)
  let margin := "".pushn ' ' (number.length + 1) ++ "|"
  let width := max 1 (min place.width (Text.utf8Length content - column))
  "TOML parse error at line " ++ number ++ ", column " ++ toString (column + 1) ++ "\n" ++
    margin ++ "\n" ++
    number ++ " | " ++ String.ofList content ++ "\n" ++
    margin ++ "".pushn ' ' (column + 1) ++ "".pushn '^' width ++ "\n"

end Place

def Fault.message (text : String) (fault : Fault) : String :=
  (fault.place.map (Place.excerpt text.toList)).getD "" ++ fault.flaw.message ++ "\n"

end DashboardScript.Toml
