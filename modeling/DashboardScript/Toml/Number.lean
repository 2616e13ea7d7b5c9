import DashboardScript.Text.Digits
import DashboardScript.Toml.Fault
import DashboardScript.Toml.Value

namespace DashboardScript.Toml.Number

open Text (decimalValue hexDigit?)

-- A word without its underscores, each of which stands between two digits. `behind` tells whether a
-- digit stands before the word.
def joined (isDigit : Char → Bool) : (behind : Bool) → List Char → Except Blemish (List Char)
  | _, [] => .ok []
  | behind, '_' :: rest =>
    if behind && rest.head?.any isDigit then joined isDigit false rest
    else .error (.atFirst .strayUnderscore ('_' :: rest))
  | _, c :: rest => (c :: ·) <$> joined isDigit (isDigit c) rest

def sign (cs : List Char) : Bool × List Char :=
  match cs with
  | '-' :: rest => (true, rest)
  | '+' :: rest => (false, rest)
  | cs => (false, cs)

def signed (negative : Bool) (n : Nat) : Int := if negative then -(n : Int) else n

def digitOf? (base : Nat) (c : Char) : Option Nat := (hexDigit? c).filter (· < base)

-- Reads digits from the left, behind the number n, up to one that is none or that leads beyond the
-- limit.
def readDigits (base limit : Nat) (beyond : NumberFault) : (n : Nat) → List Char →
    Except NumberFault Nat
  | n, [] => .ok n
  | n, c :: rest =>
    match digitOf? base c with
    | none => .error .strangeDigit
    | some d =>
      if n * base + d ≤ limit then readDigits base limit beyond (n * base + d) rest
      else .error beyond

-- A whole number has 64 bits, one of them for its sign.
def readWhole (base : Nat) (negative : Bool) (cs : List Char) : Except NumberFault Int :=
  if cs.isEmpty then .error .noDigits
  else if negative then (signed true ·) <$> readDigits base 0x8000000000000000 .tooSmall 0 cs
  else (signed false ·) <$> readDigits base 0x7fffffffffffffff .tooLarge 0 cs

def whole (base : Nat) (negative : Bool) (cs : List Char) : Value :=
  match readWhole base negative cs with
  | .ok n => .integer n
  | .error fault => .unfit fault

def isBreak (c : Char) : Bool := c == '_'

-- A whole number behind the mark of its base. It may have no digits, and then no value.
def based (base : Nat) (name : String) (cs : List Char) : Except Blemish Value := do
  let isDigit (c : Char) : Bool := (digitOf? base c).isSome
  match cs.dropWhile fun c => isDigit c || isBreak c with
  | [] => .ok (whole base false (← joined isDigit false cs))
  | stray => .error (.before (.strayInBase name) stray)

-- A whole number in base ten, behind its sign. Behind the first underscore anything may follow that
-- the underscores allow; what is no digit leaves the number without a value.
def decimal (negative : Bool) (cs : List Char) : Except Blemish Value :=
  match cs with
  | '0' :: _ :: _ => .error (.atFirst .leadingZero cs)
  | cs => whole 10 negative <$> joined (hexDigit? · |>.isSome) false cs

def isMark (c : Char) : Bool := c == 'e' || c == 'E'

-- The digits at the front of a word, of which there must be some, and what follows them.
def digits (part : String) (cs : List Char) : Except Blemish (List Char × List Char) := do
  let isPart (c : Char) : Bool := c.isDigit || isBreak c
  let ds := (cs.takeWhile isPart).filter Char.isDigit
  if ds.isEmpty then .error (.before (.noDigits part) cs)
  else .ok (ds, cs.dropWhile isPart)

-- The digits behind a point, if there is one, and what follows them.
def fraction (cs : List Char) : Except Blemish (List Char × List Char) :=
  match cs with
  | '.' :: rest => digits "fraction" rest
  | cs => .ok ([], cs)

-- The exponent, and what follows it.
def exponent (cs : List Char) : Except Blemish (Int × List Char) :=
  match cs with
  | [] => .ok (0, [])
  | mark :: rest =>
    if isMark mark then do
      let (negative, rest) := sign rest
      let (ds, rest) ← digits "exponent" rest
      .ok (signed negative (decimalValue ds), rest)
    else .ok (0, mark :: rest)

-- A number with a fraction, an exponent or both, behind its sign. It is rounded once.
def real (negative : Bool) (cs : List Char) : Except Blemish Value := do
  let (whole, rest) ← digits "mantissa" cs
  if cs.head? = some '0' ∧ 1 < whole.length then .error (.atFirst .leadingZero cs)
  let (fraction, rest) ← fraction rest
  let (exponent, rest) ← exponent rest
  unless rest.isEmpty do .error (.of .strayInReal rest)
  let _ ← joined Char.isDigit false cs
  match Binary64.ofDecimal? negative (decimalValue (whole ++ fraction))
      (exponent - fraction.length) with
  | some x => .ok (.real x)
  | none => .ok (.unfit .overflow)

end DashboardScript.Toml.Number
