import DashboardScript.Text.Hidden

namespace DashboardScript.Text

def hexDigits (n : Nat) : String := String.ofList (Nat.toDigits 16 n)

-- A character inside a quoted text: a short escape where there is one, the code point in hexadecimal
-- where the character does not show, else the character itself. A single quote needs no escape.
def escaped (c : Char) : String :=
  match c with
  | '\x00' => "\\0"
  | '\t' => "\\t"
  | '\r' => "\\r"
  | '\n' => "\\n"
  | '\\' => "\\\\"
  | '"' => "\\\""
  | c => if isHidden c then "\\u\x7b" ++ hexDigits c.toNat ++ "\x7d" else c.toString

-- A text as error messages show it, between double quotes.
def quoted (s : String) : String :=
  "\"" ++ String.join (s.toList.map escaped) ++ "\""

end DashboardScript.Text
