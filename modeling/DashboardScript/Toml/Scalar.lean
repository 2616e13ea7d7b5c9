import DashboardScript.Toml.Moment
import DashboardScript.Toml.Number

namespace DashboardScript.Toml.Scalar

-- A word that is no value. It may be a text that lacks a quote.
def noValue (cs : List Char) : Except Blemish Value :=
  match cs.getLast? with
  | some '"' => .error (.before (.openingQuote "\"") cs)
  | some '\x27' => .error (.before (.openingQuote "'") cs)
  | _ => .error (.of .unquoted cs)

-- The word that the first letter of a value leads to expect.
def expected (kind meant : String) (value : Value) (cs : List Char) : Except Blemish Value :=
  if cs = meant.toList then .ok value
  else if cs.contains ' ' then noValue cs
  else .error (.of (.unknownWord kind meant) cs)

def moment (cs : List Char) : Except Blemish Value :=
  match Moment.text? cs with
  | some text => .ok (.moment text)
  | none => .error (.of .invalidMoment cs)

-- A word that starts like a number, behind its sign: what follows the first digits tells its kind. A
-- date or a time has no sign.
def number (negative : Bool) (body word : List Char) : Except Blemish Value :=
  let rest := body.dropWhile Char.isDigit
  match rest.head? with
  | none => Number.decimal negative body
  | some mark =>
    if mark == '-' || mark == ':' then moment word
    else if rest.contains ' ' then noValue word
    else if rest.any fun c => c == '.' || Number.isMark c then Number.real negative body
    else if Number.isBreak mark then Number.decimal negative body
    else noValue word

def baseOf? (mark : Char) : Option (Nat × String × String) :=
  match mark with
  | 'x' | 'X' => some (16, "x", "hexadecimal")
  | 'o' | 'O' => some (8, "o", "octal")
  | 'b' | 'B' => some (2, "b", "binary")
  | _ => none

-- A word that starts with a zero, behind its sign. The mark of a base may follow.
def fromZero (isSigned negative : Bool) (body word : List Char) : Except Blemish Value :=
  match body with
  | zero :: mark :: ds =>
    match baseOf? mark with
    | none => number negative body word
    | some (base, letter, name) =>
      if isSigned then .error (.atFirst .signedBase word)
      else if mark.isUpper then .error (.atFirst (.unknownBase letter) (zero :: mark :: ds))
      else Number.based base name ds
  | body => number negative body word

-- What follows a sign, or a word without one.
def numeric (isSigned negative : Bool) (body word : List Char) : Except Blemish Value :=
  match body.head? with
  | none => noValue word
  | some c =>
    if c == '0' then fromZero isSigned negative body word
    else if c.isDigit || Number.isBreak c then number negative body word
    else if c == '.' then Number.real negative body
    else if c == 'i' || c == 'I' then expected "float" "inf" (.infinity negative) body
    else if c == 'n' || c == 'N' then expected "float" "nan" .notANumber body
    else if isSigned && (c == '+' || c == '-') then .error (.atFirst .repeatedSign body)
    else noValue word

-- The value that a word without quotes and brackets stands for.
def value (word : List Char) : Except Blemish Value :=
  match word.head? with
  | none => noValue word
  | some c =>
    if c == '+' || c == '-' then numeric true (c == '-') word.tail word
    else if c == 't' || c == 'T' then expected "boolean" "true" (.boolean true) word
    else if c == 'f' || c == 'F' then expected "boolean" "false" (.boolean false) word
    else numeric false false word word

end DashboardScript.Toml.Scalar
