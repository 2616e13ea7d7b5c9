import DashboardScript.Text.Digits
import DashboardScript.Toml.Scanner

namespace DashboardScript.Toml

-- A text between quotes as it is written.
structure Quoted where
  kind : TextKind
  -- the closing quotes are there
  closed : Bool
  -- what stands between the quotes
  body : List Char

namespace Quoted

open Scanner (isSpace isPlain)

-- How much a text takes with its quotes, in characters and in bytes.
def length (quoted : Quoted) : Nat :=
  quoted.body.length + (if quoted.closed then 2 else 1) * quoted.kind.quote.length

def width (quoted : Quoted) : Nat :=
  Text.utf8Length quoted.body + (if quoted.closed then 2 else 1) * quoted.kind.quote.length

-- What stands behind the opening quote of a text on one line, last character first, whether it is
-- closed, and what follows it. Behind a backslash no quote closes a text that is not verbatim. A text
-- that is not closed ends with its line.
def shortBody (verbatim : Bool) (quote : Char) : (taken : List Char) → List Char →
    List Char × Bool × List Char
  | taken, [] => (taken, false, [])
  | taken, '\n' :: rest => (taken, false, '\n' :: rest)
  | taken, '\\' :: c :: rest =>
    if !verbatim && (c == quote || c == '\\') then shortBody verbatim quote (c :: '\\' :: taken) rest
    else shortBody verbatim quote ('\\' :: taken) (c :: rest)
  | taken, c :: rest =>
    if c = quote then (taken, true, rest) else shortBody verbatim quote (c :: taken) rest

-- The same behind three opening quotes. Three quotes close the text, and up to two more behind them
-- belong to it.
def longBody (verbatim : Bool) (quote : Char) : (taken : List Char) → List Char →
    List Char × Bool × List Char
  | taken, [] => (taken, false, [])
  | taken, '\\' :: c :: rest =>
    if !verbatim && (c == quote || c == '\\') then longBody verbatim quote (c :: '\\' :: taken) rest
    else longBody verbatim quote ('\\' :: taken) (c :: rest)
  | taken, c :: rest =>
    if c = quote ∧ rest.take 2 = [quote, quote] then
      let more := ((rest.drop 2).take 2).takeWhile (· == quote)
      (more ++ taken, true, rest.drop (2 + more.length))
    else longBody verbatim quote (c :: taken) rest

-- What a backslash and one letter stand for.
def plainEscape? : Char → Option Char
  | 'b' => some '\x08'
  | 't' => some '\t'
  | 'n' => some '\n'
  | 'f' => some '\x0c'
  | 'r' => some '\r'
  | 'e' => some '\x1b'
  | '"' => some '"'
  | '\\' => some '\\'
  | _ => none

-- How many digits follow the letter of an escape by code point.
def codeLength? : Char → Option Nat
  | 'x' => some 2
  | 'u' => some 4
  | 'U' => some 8
  | _ => none

-- The character of a code point in so many hexadecimal digits. Surrogates are no characters.
def ofCode (length : Nat) (rest : List Char) : Except Blemish Char :=
  let ds := (rest.take length).filterMap Text.hexDigit?
  let code := ds.foldl (· * 16 + ·) 0
  if ds.length < length then .error (.before .codeLength rest)
  else if h : code.isValidChar then .ok (Char.ofNatAux code h)
  else .error (.before .codeValue rest)

-- What follows the blanks and line ends at the start of a text.
def afterBreaks : List Char → List Char
  | [] => []
  | '\r' :: '\n' :: rest => afterBreaks rest
  | c :: rest => if isSpace c || c == '\n' then afterBreaks rest else c :: rest

theorem length_afterBreaks_le (cs : List Char) : (afterBreaks cs).length ≤ cs.length := by
  fun_induction afterBreaks cs <;> grind

-- Whether only blanks are left on the line.
def startsBreak (cs : List Char) : Bool :=
  match cs.dropWhile isSpace with
  | '\n' :: _ => true
  | '\r' :: '\n' :: _ => true
  | _ => false

-- A character that stands for itself, but for line ends of two characters.
def isWritable (kind : TextKind) (c : Char) : Bool := isPlain c || (kind.isLong && c == '\n')

-- What is wrong with a character that may not be written.
def strayCharacter (kind : TextKind) (c : Char) : Flaw :=
  if kind.isLong && c == '\r' then .loneReturn else .textCharacter kind

-- What a text with escapes stands for, last character first, in front of what was read before. A
-- backslash at the end of a line joins it to the next one that is not blank.
def unescape (kind : TextKind) (taken : List Char) : List Char → Except Blemish (List Char)
  | [] => .ok taken
  | '\\' :: rest =>
    if kind.isLong && startsBreak rest then unescape kind taken (afterBreaks rest)
    else
      match rest with
      | [] => .error (.before .unknownEscape [])
      | c :: rest =>
        match plainEscape? c, codeLength? c with
        | some plain, _ => unescape kind (plain :: taken) rest
        | none, some length =>
          match ofCode length rest with
          | .ok plain => unescape kind (plain :: taken) (rest.drop length)
          | .error blemish => .error blemish
        | none, none => .error (.before .unknownEscape (c :: rest))
  | '\r' :: '\n' :: rest =>
    if kind.isLong then unescape kind ('\n' :: '\r' :: taken) rest
    else .error (.before (.textCharacter kind) ('\r' :: '\n' :: rest))
  | c :: rest =>
    if isWritable kind c then unescape kind (c :: taken) rest
    else .error (.before (strayCharacter kind c) (c :: rest))
termination_by cs => cs.length
decreasing_by
  all_goals simp only [List.length_cons, List.length_drop]
  all_goals have := length_afterBreaks_le rest
  all_goals omega

-- What cannot be written in a text without escapes, with all that follows.
def unwritable (kind : TextKind) : List Char → List Char
  | [] => []
  | '\r' :: '\n' :: rest => if kind.isLong then unwritable kind rest else '\r' :: '\n' :: rest
  | c :: rest => if isWritable kind c then unwritable kind rest else c :: rest

-- A line end right behind the opening quotes is no part of a text of several lines.
def lines (quoted : Quoted) : List Char :=
  match quoted.kind.isLong, quoted.body with
  | true, '\n' :: rest => rest
  | true, '\r' :: '\n' :: rest => rest
  | _, body => body

-- What the lines between the quotes stand for.
def read (kind : TextKind) (lines : List Char) : Except Blemish String :=
  if kind.isVerbatim then
    match unwritable kind lines with
    | [] => .ok (String.ofList lines)
    | c :: rest => .error (.before (strayCharacter kind c) (c :: rest))
  else (fun taken => String.ofList taken.reverse) <$> unescape kind [] lines

-- What a text stands for. A flaw is counted from the closing quotes.
def text (quoted : Quoted) : Except Blemish String :=
  if quoted.closed then
    (read quoted.kind quoted.lines).mapError fun blemish =>
      { blemish with left := blemish.left + quoted.kind.quote.length }
  else .error (.before (.textQuotes quoted.kind) [])

end Quoted

namespace Scanner

-- A text behind its quotes.
def quotedBy (short long : TextKind) (quote : Char) : Scanner Quoted := do
  let isLong ← literal? [quote, quote, quote]
  unless isLong do advance
  let rest ← get
  let (taken, closed, rest) :=
    if isLong then Quoted.longBody long.isVerbatim quote [] rest
    else Quoted.shortBody short.isVerbatim quote [] rest
  set rest
  pure ⟨if isLong then long else short, closed, taken.reverse⟩

-- A text between double or single quotes, if one starts here.
def quoted? : Scanner (Option Quoted) := do
  match ← peek with
  | some '"' => some <$> quotedBy .basic .longBasic '"'
  | some '\x27' => some <$> quotedBy .verbatim .longVerbatim '\x27'
  | _ => pure none

end Scanner

end DashboardScript.Toml
