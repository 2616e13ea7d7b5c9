namespace DashboardScript

-- A finite binary64 number. It stands for mantissa · 2 ^ exponent, negated when `negative` holds;
-- zero keeps its sign. The operations below give the mantissa 53 bits at most, and the exponent
-- -1074 whenever it has fewer.
structure Binary64 where
  negative : Bool
  mantissa : Nat
  exponent : Int
  deriving DecidableEq

namespace Binary64

def zero (negative : Bool) : Binary64 := ⟨negative, 0, -1074⟩

def isZero (x : Binary64) : Bool := x.mantissa == 0

-- The whole number nearest to num / den. A half goes to the even neighbour.
def roundHalfEven (num den : Nat) : Nat :=
  let quotient := num / den
  let rest := num % den
  if 2 * rest < den then quotient
  else if den < 2 * rest then quotient + 1
  else quotient + quotient % 2

def tenTo (k : Nat) : Nat := Nat.pow 10 k

-- The least mantissa of 53 bits, and the least one that has more.
def fullMantissa : Nat := 0x10000000000000
def excessMantissa : Nat := 0x20000000000000

-- num · 2 ^ (-e) / den as a ratio of naturals.
def shifted (num den : Nat) (e : Int) : Nat × Nat :=
  (num <<< (-e).toNat, den <<< e.toNat)

-- The mantissa and exponent nearest to num / den, or none where that is beyond the largest number.
-- The difference of the bit lengths fixes the exponent but for one, and the quotient decides.
def nearest? (num den : Nat) : Option (Nat × Int) :=
  if num = 0 then some (0, -1074)
  else
    let low : Int := max ((num.log2 : Int) - den.log2 - 53) (-1074)
    let (a, b) := shifted num den low
    let e := if excessMantissa ≤ a / b then low + 1 else low
    let (a, b) := shifted num den e
    let m := roundHalfEven a b
    let (m, e) := if m = excessMantissa then (fullMantissa, e + 1) else (m, e)
    if 971 < e then none else some (m, e)

def ofRatio? (negative : Bool) (num den : Nat) : Option Binary64 :=
  (nearest? num den).map fun (m, e) => ⟨negative, m, e⟩

-- The size of a number as a ratio of naturals.
def ratio (x : Binary64) : Nat × Nat := shifted x.mantissa 1 (-x.exponent)

def mul? (x y : Binary64) : Option Binary64 :=
  ofRatio? (x.negative != y.negative) (x.ratio.1 * y.ratio.1) (x.ratio.2 * y.ratio.2)

def div? (x y : Binary64) : Option Binary64 :=
  ofRatio? (x.negative != y.negative) (x.ratio.1 * y.ratio.2) (x.ratio.2 * y.ratio.1)

-- The number nearest to 10 ^ k. It is finite up to k = 308.
def powerOfTen? (k : Nat) : Option Binary64 := ofRatio? false (tenTo k) 1

-- Divides by 10 ^ k in steps of at most 308 decades and rounds after each step, until the value
-- vanishes.
def shrink? (x : Binary64) (k : Nat) : Option Binary64 :=
  if k ≤ 308 then do x.div? (← powerOfTen? k)
  else if x.isZero then some x
  else do
    let y ← x.div? (← powerOfTen? 308)
    shrink? y (k - 308)
termination_by k

-- Multiplies by 10 ^ k with one rounding. Past 308 decades only zero stays finite.
def grow? (x : Binary64) (k : Nat) : Option Binary64 :=
  if k ≤ 308 then do x.mul? (← powerOfTen? k)
  else if x.isZero then some x
  else none

-- significand · 10 ^ exponent, rounded first as a whole number and then after each scaling step.
-- The result can differ from the nearest number in its last bits.
def scaled? (negative : Bool) (significand : Nat) (exponent : Int) : Option Binary64 := do
  let x ← ofRatio? false significand 1
  let y ← if 0 ≤ exponent then x.grow? exponent.toNat else x.shrink? (-exponent).toNat
  return { y with negative }

-- coefficient · 10 ^ exponent, rounded once. Far outside the range of the format the answer is known
-- from the number of digits, and no power of ten is built.
def ofDecimal? (negative : Bool) (coefficient : Nat) (exponent : Int) : Option Binary64 :=
  let decades : Int := (Nat.toDigits 10 coefficient).length + exponent
  if coefficient = 0 ∨ decades < -400 then some (zero negative)
  else if 400 < decades then none
  else ofRatio? negative (coefficient * tenTo exponent.toNat) (tenTo (-exponent).toNat)

end Binary64

end DashboardScript
