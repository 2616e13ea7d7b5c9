import DashboardScript.Binary64

namespace DashboardScript.Binary64

-- coefficient · 10 ^ exponent.
structure Decimal where
  coefficient : Nat
  exponent : Int
  deriving DecidableEq

-- Which of two decimals is taken when a number lies exactly in the middle of them.
inductive Tie where
  | even
  | up
  deriving DecidableEq

-- The decade d with 10 ^ d ≤ num / den < 10 ^ (d + 1), for a ratio above zero.
def decade (num den : Nat) : Int :=
  if den ≤ num then (Nat.toDigits 10 (num / den)).length - 1
  else -((Nat.toDigits 10 ((den - 1) / num)).length : Int)

-- Drops the zeros at the end of a coefficient of at most `places` digits.
def Decimal.trim : (places : Nat) → Decimal → Decimal
  | 0, d => d
  | places + 1, d =>
    if d.coefficient % 10 = 0 then trim places ⟨d.coefficient / 10, d.exponent + 1⟩ else d

-- The reals that round to a number, in quarters of its last place: the next number is four quarters
-- away, or two below a power of two. The ends belong to it when its mantissa is even.
structure Interval where
  low : Nat
  middle : Nat
  high : Nat
  closed : Bool
  deriving DecidableEq

def interval (x : Binary64) : Interval :=
  let low := if x.mantissa = fullMantissa ∧ -1074 < x.exponent then 1 else 2
  ⟨4 * x.mantissa - low, 4 * x.mantissa, 4 * x.mantissa + 2, x.mantissa % 2 == 0⟩

-- Whether c · unit lies between the ends, which are counted in multiples of `scale`.
def Interval.holds (i : Interval) (c unit scale : Nat) : Bool :=
  if i.closed then i.low * scale ≤ c * unit && c * unit ≤ i.high * scale
  else i.low * scale < c * unit && c * unit < i.high * scale

-- The decimal on the grid of 10 ^ k that reads back as x, if one does. Where a grid meets the
-- interval at all, it does so next to x itself.
def onGrid? (tie : Tie) (x : Binary64) (k : Int) : Option Decimal :=
  let i := x.interval
  let unit := tenTo k.toNat <<< (2 - x.exponent).toNat
  let scale := tenTo (-k).toNat <<< (x.exponent - 2).toNat
  let below := i.middle * scale / unit
  let lowGap := i.middle * scale - below * unit
  let highGap := (below + 1) * unit - i.middle * scale
  let lower : Decimal := ⟨below, k⟩
  let upper : Decimal := ⟨below + 1, k⟩
  match i.holds below unit scale, i.holds (below + 1) unit scale with
  | false, false => none
  | true, false => some lower
  | false, true => some upper
  | true, true =>
    if lowGap < highGap then some lower
    else if highGap < lowGap then some upper
    else match tie with
      | .up => some upper
      | .even => if below % 2 = 0 then some lower else some upper

-- Tries one more digit at a time.
def searchGrid (tie : Tie) (x : Binary64) : (tries : Nat) → (k : Int) → Option Decimal
  | 0, _ => none
  | tries + 1, k =>
    match onGrid? tie x k with
    | some d => some d
    | none => searchGrid tie x tries (k - 1)

-- The fewest digits that read back as x, and of those the nearest to it. Seventeen digits tell any
-- two numbers apart, so the search has an answer within that many tries.
def shortest (tie : Tie) (x : Binary64) : Decimal :=
  if x.isZero then ⟨0, 0⟩
  else
    match searchGrid tie x 17 (decade x.ratio.1 x.ratio.2) with
    | some d => d.trim 17
    | none => ⟨0, 0⟩

end DashboardScript.Binary64
