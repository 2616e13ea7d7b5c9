import DashboardScript.Conversion.Event
import DashboardScript.Text.Digits
import DashboardScript.Text.Quoted

namespace DashboardScript.Log

-- A character as a terminal may get it. Those that could steer the terminal are shown by a code.
def shown (c : Char) : String :=
  match c with
  | '\x07' => "\\x07"
  | '\x08' => "\\x08"
  | '\x0c' => "\\x0c"
  | '\x1b' => "\\x1b"
  | '\x7f' => "\\x7f"
  | c =>
    if '\u0080' ≤ c && c ≤ '\u009f' then "\\u\x7b" ++ Text.hexDigits c.toNat ++ "\x7d"
    else c.toString

structure Line where
  level : Level
  message : String
  deriving DecidableEq

def lineOf (event : Event) : Line := ⟨event.level, String.join (event.message.toList.map shown)⟩

-- The least level that is logged, none for no log at all.
abbrev Threshold := Option Level

def Threshold.ofName? (name : String) : Option Threshold :=
  match name with
  | "off" => some none
  | "" => some (some .error)
  | "error" => some (some .error)
  | "warn" => some (some .warn)
  | "info" => some (some .info)
  | "debug" => some (some .debug)
  | "trace" => some (some .trace)
  | _ => none

-- Where no level is asked for, the log has what is of interest to any user.
def Threshold.default : Threshold := some .info

def Threshold.admits (threshold : Threshold) (level : Level) : Bool :=
  match threshold with
  | none => false
  | some least => least.rank ≤ level.rank

def lines (threshold : Threshold) (events : List Event) : List Line :=
  (events.filter fun event => threshold.admits event.level).map lineOf

end DashboardScript.Log
