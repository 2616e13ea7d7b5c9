import DashboardScript.Log
import DashboardScript.Run

namespace DashboardScript

-- What a run leaves to the system: the exit code, what is written to the output, and for the user the
-- lines of the log and the report of a failure.
structure Outcome where
  exitCode : Nat
  output : ByteArray
  log : List Log.Line
  failure : Option String

-- The threshold decides on the lines of the log.
def Report.outcome (threshold : Log.Threshold) (report : Report) : Outcome where
  exitCode := report.exitCode
  output := report.output.toUTF8
  log := Log.lines threshold report.events
  failure := report.failure

end DashboardScript
