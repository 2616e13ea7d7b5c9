import DashboardScript.Json.Reader
import DashboardScript.Text.Digits

namespace DashboardScript.Json

open Text (utf8Length)

-- A number as it is spelled. The digits of the fraction are none where it has no point.
structure Numeral where
  negative : Bool
  whole : List Char
  fraction : List Char
  -- the sign and the digits of the exponent
  exponent : Option (Bool × List Char)
  deriving DecidableEq

namespace Numeral

-- The largest whole number that is kept exact, and the largest negated one.
def wordLimit : Nat := 0xffffffffffffffff
def negativeLimit : Nat := 0x8000000000000000

-- Takes digits into a significand while it stays within 64 bits. The second part counts the digits
-- left out.
def absorb : (significand : Nat) → List Char → Nat × Nat
  | s, [] => (s, 0)
  | s, d :: ds =>
    let next := s * 10 + Text.digitValue d
    if next ≤ wordLimit then absorb next ds else (s, (d :: ds).length)

def writtenExponent (n : Numeral) : Int :=
  match n.exponent with
  | none => 0
  | some (negative, ds) =>
    if negative then -(Text.decimalValue ds : Int) else Text.decimalValue ds

-- Whether the spelling is that of a whole number.
def isWhole (n : Numeral) : Bool := n.fraction.isEmpty && n.exponent.isNone

-- A whole number within 64 bits, signed or not, is exact; minus zero is real. A real takes as many
-- digits as fit into 64 bits and is scaled from there. None where it would be infinite.
def value? (n : Numeral) : Option Number :=
  let (s, left) := absorb 0 n.whole
  if n.isWhole && left == 0 then
    if n.negative then
      if s = 0 ∨ negativeLimit < s then (Binary64.ofRatio? true s 1).map .real
      else some (.integer (-(s : Int)))
    else some (.integer s)
  else
    let (t, dropped) := absorb s n.fraction
    let kept := n.fraction.length - dropped
    (Binary64.scaled? n.negative t (left - kept + n.writtenExponent)).map .real

-- The digits behind the one that takes an exponent past 31 bits. Such an exponent is known to be out
-- of range before these are read.
def hastyDigits : (value : Nat) → List Char → Nat
  | _, [] => 0
  | value, d :: ds =>
    let next := value * 10 + Text.digitValue d
    if 0x80000000 ≤ next then ds.length else hastyDigits next ds

def unseenDigits (n : Numeral) : Nat :=
  match n.exponent with
  | none => 0
  | some (_, ds) => hastyDigits 0 ds

end Numeral

namespace Reader

def digits : Reader (List Char) := fun rest =>
  .ok (rest.takeWhile Char.isDigit, rest.dropWhile Char.isDigit)

-- At least one digit. Another byte is taken before it is refused.
def someDigits (atEnd : Cause) : Reader (List Char) := do
  match ← peek with
  | none => fail atEnd
  | some c => if c.isDigit then digits else failPast 1 .invalidNumber

-- The digits before the point. A zero stands alone.
def wholeDigits (atEnd : Cause) : Reader (List Char) := do
  if (← peek) = some '0' then do
    advance
    match ← peek with
    | some c => if c.isDigit then failNext .invalidNumber else pure ['0']
    | none => pure ['0']
  else someDigits atEnd

def fractionDigits (atEnd : Cause) : Reader (List Char) := do
  if (← peek) = some '.' then do
    advance
    match ← digits with
    | [] => do
      if (← peek).isSome then failNext .invalidNumber else failNext atEnd
    | ds => pure ds
  else pure []

def isExponentMark (c : Option Char) : Bool := c == some 'e' || c == some 'E'

def exponentDigits (atEnd : Cause) : Reader (Option (Bool × List Char)) := do
  if isExponentMark (← peek) then do
    advance
    let sign ← peek
    if sign = some '+' ∨ sign = some '-' then advance
    let ds ← someDigits atEnd
    pure (some (sign == some '-', ds))
  else pure none

def minus : Reader Bool := do
  if (← peek) = some '-' then do
    advance
    pure true
  else pure false

-- The spelling of a number that starts with a minus or a digit. `atEnd` is the cause of a failure
-- where the text ends before a digit.
def numeral (atEnd : Cause) : Reader Numeral := do
  let negative ← minus
  let whole ← wholeDigits atEnd
  let fraction ← fractionDigits atEnd
  let exponent ← exponentDigits atEnd
  pure ⟨negative, whole, fraction, exponent⟩

def number : Reader Number := do
  let n ← numeral (.ended .value)
  match n.value? with
  | some value => pure value
  | none => fun rest => .error ⟨.numberOutOfRange, utf8Length rest + n.unseenDigits, false⟩

-- A text that is a number and nothing else. Bytes left over count more than what came before them.
def onlyNumber : Reader Number := fun text =>
  let leftOver : Nat → Except Failure (Number × List Char) := fun unread =>
    .error ⟨.invalidNumber, unread, true⟩
  match text with
  | [] => failNext (.ended .value) text
  | c :: _ =>
    if c = '-' || c.isDigit then
      match number text with
      | .ok (value, []) => .ok (value, [])
      | .ok (_, rest) => leftOver (utf8Length rest)
      | .error f => if f.unread = 0 then .error f else leftOver f.unread
    else leftOver (utf8Length text)

end Reader

end DashboardScript.Json
