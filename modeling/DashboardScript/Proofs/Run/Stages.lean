import DashboardScript.Outcome
import DashboardScript.Proofs.Conversion.Accounting
import DashboardScript.WorkDir

namespace DashboardScript

namespace Outcome

end Outcome

namespace Conversion

variable {settings : Settings} {dashboard : Dashboard}

end Conversion

section Run

open Settings

variable (files : Files Id) (settings : Settings)

end Run

namespace Report

end Report

-- A configuration file that cannot be read is no failure. It hides the one that has no settings, and
-- it is the input that is missing.
example :
    (run (WorkDir.ofList [("config/converter.toml", .unreadable .denied),
        ("config/converter.json", .file "[]".toUTF8)]).files Settings.Readers.absent).failure =
      some (Report.failureText "cannot read dashboard file ./test.json"
        (some ReadError.notFound.message)) := by
  rfl

end DashboardScript
