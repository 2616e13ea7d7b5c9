import DashboardScript.Binary64.Decimal

namespace DashboardScript.Binary64

-- How a number is written out.
structure Layout where
  -- the decades written without an exponent, none for all of them
  positional : Option (Int × Int)
  -- whether a whole number keeps one digit after its point
  fraction : Bool
  tie : Tie
  deriving DecidableEq

def Layout.isPositional (layout : Layout) (decade : Int) : Bool :=
  match layout.positional with
  | none => true
  | some (least, most) => least ≤ decade && decade ≤ most

def zeros (n : Nat) : List Char := List.replicate n '0'

-- The digits with a point after the first `point` of them, zeros filling up on either side.
def positionalText (fraction : Bool) (digits : List Char) (point : Int) : List Char :=
  if point ≤ 0 then '0' :: '.' :: (zeros (-point).toNat ++ digits)
  else if (digits.length : Int) ≤ point then
    digits ++ zeros (point.toNat - digits.length) ++ if fraction then ['.', '0'] else []
  else digits.take point.toNat ++ '.' :: digits.drop point.toNat

-- One digit before the point, and an exponent that always has its sign.
def exponentText (digits : List Char) (decade : Int) : List Char :=
  let mark := if decade < 0 then '-' else '+'
  let written := Nat.toDigits 10 decade.natAbs
  match digits with
  | [] => []
  | [d] => d :: 'e' :: mark :: written
  | d :: ds => d :: '.' :: (ds ++ 'e' :: mark :: written)

def Layout.text (layout : Layout) (x : Binary64) : String :=
  let digits :=
    if x.isZero then if layout.fraction then ['0', '.', '0'] else ['0']
    else
      let d := shortest layout.tie x
      let digits := Nat.toDigits 10 d.coefficient
      let point := digits.length + d.exponent
      if layout.isPositional (point - 1) then positionalText layout.fraction digits point
      else exponentText digits (point - 1)
  String.ofList (if x.negative then '-' :: digits else digits)

end DashboardScript.Binary64
