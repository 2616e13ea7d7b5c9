import DashboardScript.Text.Digits

namespace DashboardScript.Toml.Moment

open Text (decimalValue)

-- Exactly two digits, within bounds, and what follows them.
def twoDigits? (low high : Nat) : List Char → Option (Nat × List Char)
  | a :: b :: rest =>
    let n := decimalValue [a, b]
    if a.isDigit && b.isDigit && low ≤ n && n ≤ high then some (n, rest) else none
  | _ => none

def isLeap (year : Nat) : Bool := year % 4 == 0 && (year % 100 != 0 || year % 400 == 0)

def monthDays (year month : Nat) : Nat :=
  if month == 2 then if isLeap year then 29 else 28
  else if month == 4 || month == 6 || month == 9 || month == 11 then 30
  else 31

-- A date as year, month and day. Its text is its own normal form.
def date? (cs : List Char) : Option (List Char × List Char) :=
  match cs with
  | a :: b :: c :: d :: '-' :: rest => do
    guard ([a, b, c, d].all Char.isDigit)
    let (month, rest) ← twoDigits? 1 12 rest
    match rest with
    | '-' :: rest => do
      let (_, rest) ← twoDigits? 1 (monthDays (decimalValue [a, b, c, d]) month) rest
      some (cs.take 10, rest)
    | _ => none
  | _ => none

-- The digits of a fraction of a second, nine at most and without zeros at the end.
def secondFraction (ds : List Char) : List Char :=
  match ((ds.take 9).reverse.dropWhile (· == '0')).reverse with
  | [] => ['0']
  | ds => ds

-- A time as hours and minutes, with seconds and a fraction of a second if they are given.
def time? (cs : List Char) : Option (List Char × List Char) := do
  let (_, rest) ← twoDigits? 0 23 cs
  match rest with
  | ':' :: rest => do
    let (_, rest) ← twoDigits? 0 59 rest
    match rest with
    | ':' :: rest => do
      let (_, rest) ← twoDigits? 0 60 rest
      match rest with
      | '.' :: rest =>
        match rest.takeWhile Char.isDigit with
        | [] => none
        | ds => some (cs.take 8 ++ '.' :: secondFraction ds, rest.dropWhile Char.isDigit)
      | rest => some (cs.take 8, rest)
    | rest => some (cs.take 5, rest)
  | _ => none

-- The distance from universal time. Minus nothing is plus nothing.
def offset? (cs : List Char) : Option (List Char) :=
  match cs with
  | ['Z'] => some ['Z']
  | ['z'] => some ['Z']
  | mark :: rest => do
    guard (mark == '+' || mark == '-')
    let (hours, rest) ← twoDigits? 0 23 rest
    match rest with
    | ':' :: rest => do
      let (minutes, rest) ← twoDigits? 0 59 rest
      guard rest.isEmpty
      some ((if hours + minutes = 0 then '+' else mark) :: cs.tail)
    | _ => none
  | [] => none

-- A date, a time, or both with an offset or without one. A date and a time are joined by a T.
def text? (cs : List Char) : Option String := do
  match date? cs with
  | none => do
    let (time, rest) ← time? cs
    guard rest.isEmpty
    some (String.ofList time)
  | some (date, []) => some (String.ofList date)
  | some (date, mark :: rest) => do
    guard (mark == 'T' || mark == 't' || mark == ' ')
    let (time, rest) ← time? rest
    let zone ← if rest.isEmpty then some [] else offset? rest
    some (String.ofList (date ++ 'T' :: time ++ zone))

end DashboardScript.Toml.Moment
