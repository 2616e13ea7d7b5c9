import DashboardScript.PanelKind

namespace DashboardScript

-- What the converter left out without failing.
inductive Diagnostic where
  | nullPanel (index : Nat)
  | unsupportedPanel (index : Nat) (type : String)
  deriving DecidableEq

namespace Diagnostic

def index : Diagnostic → Nat
  | .nullPanel index => index
  | .unsupportedPanel index _ => index

def message : Diagnostic → String
  | .nullPanel index => "panel " ++ toString index ++ ": null panel skipped"
  | .unsupportedPanel index type =>
    "panel " ++ toString index ++ ": " ++ PanelKind.unsupportedMessage type ++ " skipped"

end Diagnostic

-- How much an event matters, least first.
inductive Level where
  | trace
  | debug
  | info
  | warn
  | error
  deriving DecidableEq

namespace Level

def name : Level → String
  | .trace => "TRACE"
  | .debug => "DEBUG"
  | .info => "INFO"
  | .warn => "WARN"
  | .error => "ERROR"

def rank : Level → Nat
  | .trace => 0
  | .debug => 1
  | .info => 2
  | .warn => 3
  | .error => 4

end Level

-- Something that happens in a run and is worth a line in its log.
inductive Event where
  | read (bytes : Nat) (path : String)
  | skipped (diagnostic : Diagnostic)
  | added (kind : PanelKind) (index targets : Nat)
  | converted (panels : Nat) (path : String) (leftOut : Nat)
  deriving DecidableEq

namespace Event

def level : Event → Level
  | .read .. => .debug
  | .skipped _ => .warn
  | .added .. => .debug
  | .converted .. => .info

def message : Event → String
  | .read bytes path => "Read " ++ toString bytes ++ " bytes from " ++ path
  | .skipped (.nullPanel index) => "Skipping null panel at index " ++ toString index
  | .skipped (.unsupportedPanel index type) =>
    "Skipping panel " ++ toString index ++ " with unsupported type '" ++ type ++ "'"
  | .added kind index targets =>
    "Adding " ++ kind.name ++ " panel " ++ toString index ++ " with " ++ toString targets ++
      " targets"
  | .converted panels path leftOut =>
    "Converted " ++ toString panels ++ " panels from " ++ path ++ " (" ++ toString leftOut ++
      " skipped)"

end Event

end DashboardScript
