import DashboardScript.Json.Reader
import DashboardScript.Text.Digits

namespace DashboardScript.Json.Reader

open Text (utf8Length)

def hexValue? (a b c d : Char) : Option Nat := do
  let high := (← Text.hexDigit? a) * 16 + (← Text.hexDigit? b)
  let low := (← Text.hexDigit? c) * 16 + (← Text.hexDigit? d)
  return high * 256 + low

-- A code of four hexadecimal digits. Four bytes are taken whatever they are, and where there are
-- fewer, all of them.
def hexCode : Reader Nat := fun rest =>
  match rest with
  | a :: b :: c :: d :: behind =>
    match hexValue? a b c d with
    | some code => .ok (code, behind)
    | none => failPast 4 .invalidEscape rest
  | _ =>
    if utf8Length rest < 4 then failPast 4 (.ended .string) rest
    else failPast 4 .invalidEscape rest

-- Takes one character of the second escape of a surrogate pair.
def pairMark (mark : Char) : Reader Unit := do
  match ← peek with
  | none => fail (.ended .string)
  | some c => if c = mark then advance else failPast 1 .brokenSurrogatePair

-- The character of a \u escape, read from its digits on. A leading surrogate needs a trailing one
-- in a second escape, and the two make one character.
def unicode : Reader Char := do
  let code ← hexCode
  if 0xdc00 ≤ code ∧ code ≤ 0xdfff then fail .loneSurrogate
  else if 0xd800 ≤ code ∧ code ≤ 0xdbff then do
    pairMark '\\'
    pairMark 'u'
    let trailing ← hexCode
    if 0xdc00 ≤ trailing ∧ trailing ≤ 0xdfff then
      pure (Char.ofNat (0x10000 + (code - 0xd800) * 0x400 + (trailing - 0xdc00)))
    else fail .loneSurrogate
  else pure (Char.ofNat code)

-- The characters with an escape of two characters, by its second one.
def shortEscape? (c : Char) : Option Char :=
  match c with
  | '"' => some '"'
  | '\\' => some '\\'
  | '/' => some '/'
  | 'b' => some '\x08'
  | 'f' => some '\x0c'
  | 'n' => some '\n'
  | 'r' => some '\r'
  | 't' => some '\t'
  | _ => none

-- What an escape stands for, read behind its backslash.
def escape : Reader Char := do
  match ← peek with
  | none => fail (.ended .string)
  | some c =>
    match shortEscape? c with
    | some plain => do
      advance
      pure plain
    | none =>
      if c = 'u' then do
        advance
        unicode
      else failPast 1 .invalidEscape

-- The characters of a string up to its closing quote, last one first, behind those taken already.
-- A text of `most` characters ends within that many rounds.
def characters : (most : Nat) → (taken : List Char) → Reader (List Char)
  | 0, _ => fail (.ended .string)
  | most + 1, taken => do
    match ← peek with
    | none => fail (.ended .string)
    | some c =>
      if c = '"' then do
        advance
        pure taken
      else if c = '\\' then do
        advance
        let plain ← escape
        characters most (plain :: taken)
      else if c < ' ' then failPast 1 .controlCharacter
      else do
        advance
        characters most (c :: taken)

-- A string, read from its opening quote on.
def quotedString : Reader String := do
  advance
  let rest ← get
  let taken ← characters rest.length []
  pure (String.ofList taken.reverse)

end DashboardScript.Json.Reader
