namespace DashboardScript.Text

def digitValue (c : Char) : Nat := c.toNat - '0'.toNat

-- The number that decimal digits write. No digits write zero.
def decimalValue (ds : List Char) : Nat := ds.foldl (fun n d => n * 10 + digitValue d) 0

-- The value of a hexadecimal digit of either case.
def hexDigit? (c : Char) : Option Nat :=
  if '0' ≤ c && c ≤ '9' then some (digitValue c)
  else if 'a' ≤ c && c ≤ 'f' then some (c.toNat - 'a'.toNat + 10)
  else if 'A' ≤ c && c ≤ 'F' then some (c.toNat - 'A'.toNat + 10)
  else none

end DashboardScript.Text
