import DashboardScript.Conversion.Event
import DashboardScript.Dashboard
import DashboardScript.Script
import DashboardScript.Settings

namespace DashboardScript

-- A finished script, with what was left out of it and how many panels it has.
structure Conversion where
  script : String
  diagnostics : List Diagnostic
  panels : Nat
  deriving DecidableEq

-- A panel that ends a conversion: its place in the dashboard and its type.
structure UnsupportedPanel where
  index : Nat
  type : String
  deriving DecidableEq

def UnsupportedPanel.message (e : UnsupportedPanel) : String :=
  "panel " ++ toString e.index ++ ": " ++ PanelKind.unsupportedMessage e.type

-- A result together with the events on the way to it, also where it is a failure.
structure Traced (ε α : Type) where
  events : List Event
  result : Except ε α

namespace Traced

def ok {ε α : Type} (a : α) : Traced ε α := ⟨[], .ok a⟩

def error {ε α : Type} (e : ε) : Traced ε α := ⟨[], .error e⟩

-- Puts an event in front of the others.
def after {ε α : Type} (event : Event) (traced : Traced ε α) : Traced ε α :=
  { traced with events := event :: traced.events }

def map {ε α β : Type} (f : α → β) (traced : Traced ε α) : Traced ε β :=
  { traced with result := traced.result.map f }

def mapError {ε δ α : Type} (f : ε → δ) (traced : Traced ε α) : Traced δ α :=
  { traced with result := traced.result.mapError f }

end Traced

namespace Conversion

open Script

-- The values for the head of the script. An empty title counts as none.
def preamble (settings : PreambleSettings) (dashboard : Dashboard) : Preamble :=
  match settings.titleSource with
  | .fixed => ⟨settings.title, settings.uid, []⟩
  | .dashboard =>
    ⟨(dashboard.title.filter (· != "")).getD settings.title, settings.uid, dashboard.tags⟩

-- What a conversion has made of the entries behind it.
abbrev Progress := Script × List Diagnostic

def leaveOut (diagnostic : Diagnostic) (traced : Traced UnsupportedPanel Progress) :
    Traced UnsupportedPanel Progress :=
  (traced.map fun (script, diagnostics) => (script, diagnostic :: diagnostics)).after
    (.skipped diagnostic)

-- Takes the entries from position `index` on, in order. A panel of a supported type is added to the
-- script. Null is left out, and so is a panel of another type unless the policy is to stop there.
def entries (policy : UnsupportedPolicy) : (index : Nat) → List (Option Panel) → Script →
    Traced UnsupportedPanel Progress
  | _, [], script => .ok (script, [])
  | index, none :: rest, script =>
    leaveOut (.nullPanel index) (entries policy (index + 1) rest script)
  | index, some panel :: rest, script =>
    match PanelKind.ofName? panel.type, policy with
    | some kind, _ =>
      (entries policy (index + 1) rest (script.addPanel panel kind)).after
        (.added kind index panel.targetList.length)
    | none, .skip =>
      leaveOut (.unsupportedPanel index panel.type) (entries policy (index + 1) rest script)
    | none, .abort => .error ⟨index, panel.type⟩

def ofProgress : Progress → Conversion
  | (script, diagnostics) => ⟨script.text, diagnostics, script.panels⟩

end Conversion

open Conversion in
-- Turns a dashboard into a script.
def convert (settings : Settings) (dashboard : Dashboard) : Traced UnsupportedPanel Conversion :=
  (entries settings.unsupportedPolicy 0 dashboard.panels
    (Script.start (preamble settings.preamble dashboard) settings.literalStyle)).map ofProgress

end DashboardScript
