import DashboardScript.Proofs.Script.Fields

namespace DashboardScript

open Script

-- A text as far as a script tells it: one that is empty is not there.
def visible (text : Option String) : Option String := text.filter (· != "")

-- What a script tells of a query.
structure TargetView where
  expr : String
  format : Option String
  legendFormat : Option String
  -- the number as it is written
  intervalFactor : Option String
  hide : Option Bool
  instant : Option Bool
  interval : Option String
  deriving DecidableEq

-- What a script tells of a panel beside what it tells of any panel, by the kind of the panel.
inductive KindView where
  | row (collapsed : Bool)
  | pieChart (pieType : Option String)
  | timeseries
  | stat (colorMode justifyMode orientation pluginVersion unit thresholdsMode : Option String)
  | barGauge (unit : Option String)
  | gauge (pluginVersion unit thresholdsMode : Option String)
  deriving DecidableEq

structure PanelView where
  gridPos : GridPos
  title : Option String
  description : Option String
  own : KindView
  targets : List TargetView
  deriving DecidableEq

namespace Target

def view (target : Target) : TargetView where
  expr := target.expr
  format := visible target.format
  legendFormat := visible target.legendFormat
  intervalFactor := target.intervalFactor.map Json.Number.text
  hide := target.hide
  instant := target.instant
  interval := visible target.interval

end Target

namespace Panel

-- A row that does not say whether it is collapsed is not.
def ownView (panel : Panel) : PanelKind → KindView
  | .row => .row (panel.collapsed.getD false)
  | .pieChart => .pieChart (visible panel.options.pieType)
  | .timeseries => .timeseries
  | .stat =>
    .stat (visible panel.options.colorMode) (visible panel.options.justifyMode)
      (visible panel.options.orientation) (visible panel.pluginVersion) (visible panel.unit)
      (visible panel.thresholdsMode)
  | .barGauge => .barGauge (visible panel.unit)
  | .gauge =>
    .gauge (visible panel.pluginVersion) (visible panel.unit) (visible panel.thresholdsMode)

def view (panel : Panel) (kind : PanelKind) : PanelView where
  gridPos := panel.gridPos
  title := visible panel.title
  description := visible panel.description
  own := panel.ownView kind
  targets := panel.targetList.map Target.view

end Panel

-- The texts in a view that come from outside as they are.
def TargetView.texts (view : TargetView) : List String :=
  view.expr :: (view.format.toList ++ view.legendFormat.toList ++ view.interval.toList)

def KindView.texts : KindView → List String
  | .row _ => []
  | .pieChart pieType => pieType.toList
  | .timeseries => []
  | .stat colorMode justifyMode orientation pluginVersion unit thresholdsMode =>
    colorMode.toList ++ justifyMode.toList ++ orientation.toList ++ pluginVersion.toList ++
      unit.toList ++ thresholdsMode.toList
  | .barGauge unit => unit.toList
  | .gauge pluginVersion unit thresholdsMode =>
    pluginVersion.toList ++ unit.toList ++ thresholdsMode.toList

def PanelView.texts (view : PanelView) : List String :=
  view.title.toList ++ view.description.toList ++ view.own.texts ++
    view.targets.flatMap TargetView.texts

namespace Script

section Shown

variable (style : LiteralStyle)

-- A text in the quotes that only the style of flags and numbers decides on.
def styled (text : String) : String :=
  match style with
  | .quoted => quoted text
  | .bare => text

-- A wording is left out where it is empty and stands between quotes in either style.
theorem shown_wording {wording : String → Literal}
    (hpresent : ∀ s, (wording s).isPresent = (s != ""))
    (hrender : ∀ s, (wording s).render style = quoted s) (text : Option String) :
    shown style (text.map wording) = (visible text).map quoted := by
  cases text with
  | none => rfl
  | some s => by_cases h : s = "" <;> simp [shown, visible, Option.filter, hpresent, hrender, h]

theorem shown_text (text : Option String) :
    shown style (text.map .text) = (visible text).map quoted :=
  shown_wording style (fun _ => rfl) (fun _ => rfl) text

theorem shown_keyword (text : Option String) :
    shown style (text.map .keyword) = (visible text).map quoted :=
  shown_wording style (fun _ => rfl) (fun _ => rfl) text

theorem shown_flag (flag : Option Bool) :
    shown style (flag.map .flag) = flag.map fun b => styled style (Literal.flag b).plain := by
  cases flag with
  | none => rfl
  | some b => cases style <;> rfl

theorem shown_number (number : Option Json.Number) :
    shown style (number.map .number) = (number.map Json.Number.text).map (styled style) := by
  cases number with
  | none => rfl
  | some n => cases style <;> rfl

theorem quoted_injective {first second : String} (h : quoted first = quoted second) :
    first = second := by
  have hlist := congrArg String.toList h
  simp only [quoted, String.toList_append, List.append_assoc, List.append_right_inj,
    List.append_left_inj] at hlist
  exact String.toList_inj.mp hlist

theorem styled_injective {first second : String} (h : styled style first = styled style second) :
    first = second := by
  cases style with
  | quoted => exact quoted_injective h
  | bare => exact h

theorem plain_flag_injective {first second : Bool}
    (h : (Literal.flag first).plain = (Literal.flag second).plain) : first = second := by
  cases first <;> cases second <;> first | rfl | exact absurd h (by decide)

end Shown

end Script

end DashboardScript
