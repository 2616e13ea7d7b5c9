import DashboardScript.Proofs.Conversion.Accounting
import DashboardScript.Proofs.Conversion.Append
import DashboardScript.Proofs.Conversion.Policies
import DashboardScript.Proofs.Script.Calls
import DashboardScript.Run

namespace DashboardScript

open Script
open Text (occurrences)

-- The entry of a dashboard that an event tells of.
def Event.position? : Event → Option Nat
  | .read .. => none
  | .skipped diagnostic => some diagnostic.index
  | .added _ index _ => some index
  | .converted .. => none

namespace Conversion

variable (settings : Settings) (dashboard : Dashboard)

section Events

variable (index : Nat) (panels : List (Option Panel))

end Events

variable {settings dashboard}

theorem fromUTF8?_toUTF8 (text : String) : String.fromUTF8? text.toUTF8 = some text :=
  dif_pos text.isValidUTF8

end Conversion

end DashboardScript
