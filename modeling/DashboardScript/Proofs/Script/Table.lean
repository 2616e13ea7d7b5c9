import Mathlib.Data.List.Nodup
import DashboardScript.Proofs.Script.View

namespace DashboardScript

open Script

namespace Script

section Labelled

variable {π : Type} {value? : π → Option String} {parameters : List π}

-- The parameters of a call that have a value, each with its value.
def labelled (value? : π → Option String) (parameters : List π) : List (π × String) :=
  parameters.filterMap fun parameter => (value? parameter).map (parameter, ·)

theorem labelled_sublist (value? : π → Option String) (parameters : List π) :
    ((labelled value? parameters).map Prod.fst).Sublist parameters := by
  unfold labelled
  induction parameters with
  | nil => exact .slnil
  | cons parameter parameters ih =>
      rw [List.filterMap_cons]
      cases value? parameter with
      | none => exact ih.cons parameter
      | some value => exact ih.cons_cons parameter

theorem mem_labelled_iff (parameter : π) (value : String) :
    (parameter, value) ∈ labelled value? parameters ↔
      parameter ∈ parameters ∧ value? parameter = some value := by
  rw [labelled, List.mem_filterMap]
  constructor
  · rintro ⟨asked, hasked, hvalue⟩
    obtain ⟨written, hwritten, heq⟩ := Option.map_eq_some_iff.mp hvalue
    cases heq
    exact ⟨hasked, hwritten⟩
  · rintro ⟨hmem, hvalue⟩
    exact ⟨parameter, hmem, by rw [hvalue, Option.map_some]⟩

theorem labelled_congr {other? : π → Option String}
    (h : ∀ parameter ∈ parameters, other? parameter = value? parameter) :
    labelled other? parameters = labelled value? parameters :=
  List.filterMap_congr fun parameter hparameter => by rw [h parameter hparameter]

theorem labelled_middle {parameter : π} {value : String} (h : value? parameter = some value)
    (before after : List π) :
    labelled value? (before ++ parameter :: after) =
      labelled value? before ++ (parameter, value) :: labelled value? after := by
  rw [labelled, List.filterMap_append, List.filterMap_cons, h]
  rfl

-- The arguments without those of one parameter.
theorem labelled_filter [DecidableEq π] {parameter : π} {less? : π → Option String}
    (hgone : less? parameter = none)
    (hother : ∀ other, other ≠ parameter → less? other = value? other) :
    labelled less? parameters =
      (labelled value? parameters).filter fun argument => argument.1 ≠ parameter := by
  rw [labelled, labelled, List.filter_filterMap]
  refine List.filterMap_congr fun other _ => ?_
  by_cases h : other = parameter
  · subst h
    rw [hgone]
    cases value? other <;> simp [Option.filter]
  · rw [hother other h]
    cases value? other <;> simp [Option.filter, h]

-- A parameter that loses its value takes its own argument away and leaves the others.
theorem labelled_without [DecidableEq π] (hnodup : parameters.Nodup) {parameter : π}
    {less? : π → Option String} (hgone : less? parameter = none)
    (hother : ∀ other, other ≠ parameter → less? other = value? other) {value : String}
    {before after : List (π × String)}
    (h : labelled value? parameters = before ++ (parameter, value) :: after) :
    labelled less? parameters = before ++ after := by
  have honce := (labelled_sublist value? parameters).nodup hnodup
  rw [h, List.map_append, List.map_cons, List.nodup_middle, List.nodup_cons, List.mem_append,
    not_or] at honce
  have hkept : ∀ arguments : List (π × String), parameter ∉ arguments.map Prod.fst →
      (arguments.filter fun argument => argument.1 ≠ parameter) = arguments := by
    intro arguments hnot
    rw [List.filter_eq_self]
    intro argument hargument
    exact decide_eq_true fun heq => hnot (heq ▸ List.mem_map_of_mem hargument)
  rw [labelled_filter hgone hother, h, List.filter_append, List.filter_cons_of_neg (by simp),
    hkept before honce.1.1, hkept after honce.1.2]

end Labelled

end Script

-- What the constructors of panels can be given.
inductive Parameter where
  | title
  | description
  | collapse
  | pluginVersion
  | unit
  | thresholdsMode
  | pieType
  | colorMode
  | justifyMode
  | orientation
  deriving DecidableEq

namespace PanelKind

-- The table of constructors: for each kind the path of its constructor, and what it takes beside
-- the title and the description.
def path : PanelKind → String
  | .row => "grafana.row.new"
  | .timeseries => "grafana.graphPanel.new"
  | .gauge => "grafana.gaugePanel.new"
  | .barGauge => "grafana.barGaugePanel.new"
  | .pieChart => "grafana.pieChartPanel.new"
  | .stat => "grafana.statPanel.new"

def ownParameters : PanelKind → List Parameter
  | .row => [.collapse]
  | .timeseries => []
  | .gauge => [.pluginVersion, .unit, .thresholdsMode]
  | .barGauge => [.unit]
  | .pieChart => [.pieType]
  | .stat => [.colorMode, .justifyMode, .orientation, .pluginVersion, .unit, .thresholdsMode]

def parameters (kind : PanelKind) : List Parameter := .title :: .description :: kind.ownParameters

theorem path_eq (kind : PanelKind) : kind.path = "grafana." ++ kind.constructor ++ ".new" := by
  cases kind <;> rfl

end PanelKind

namespace Parameter

def name : Parameter → String
  | .title => "title"
  | .description => "description"
  | .collapse => "collapse"
  | .pluginVersion => "pluginVersion"
  | .unit => "unit"
  | .thresholdsMode => "thresholdsMode"
  | .pieType => "pieType"
  | .colorMode => "colorMode"
  | .justifyMode => "justifyMode"
  | .orientation => "orientation"

-- The text that a panel holds for the parameter. Whether a row is collapsed is no text.
def wording? (panel : Panel) : Parameter → Option String
  | .title => panel.title
  | .description => panel.description
  | .collapse => none
  | .pluginVersion => panel.pluginVersion
  | .unit => panel.fieldConfig.defaults.unit
  | .thresholdsMode => panel.fieldConfig.defaults.thresholds.bind Thresholds.mode
  | .pieType => panel.options.pieType
  | .colorMode => panel.options.colorMode
  | .justifyMode => panel.options.justifyMode
  | .orientation => panel.options.orientation

-- What stands behind the name of the parameter in a call. A text is between quotes in either
-- style, and is left out if it is empty; a row always says whether it is collapsed.
inductive Supplies (style : LiteralStyle) (panel : Panel) : Parameter → String → Prop where
  | wording {parameter : Parameter} {text : String} (held : parameter.wording? panel = some text)
      (notEmpty : text ≠ "") : Supplies style panel parameter ("'" ++ text ++ "'")
  | collapse : Supplies style panel .collapse
      (styled style (if panel.collapsed = some true then "true" else "false"))

-- The value as the arguments of a call are asked for.
def literal? (panel : Panel) : Parameter → Option Literal
  | .title => panel.title.map .text
  | .description => panel.description.map .text
  | .collapse => (some (panel.collapsed.getD false)).map .flag
  | .pluginVersion => panel.pluginVersion.map .text
  | .unit => panel.unit.map .keyword
  | .thresholdsMode => panel.thresholdsMode.map .keyword
  | .pieType => panel.options.pieType.map .keyword
  | .colorMode => panel.options.colorMode.map .keyword
  | .justifyMode => panel.options.justifyMode.map .keyword
  | .orientation => panel.options.orientation.map .keyword

section Supplied

variable {style : LiteralStyle} {panel : Panel} {parameter : Parameter} {value : String}

theorem shown_literal?_wording (h : parameter ≠ .collapse) :
    shown style (parameter.literal? panel) = (visible (parameter.wording? panel)).map quoted := by
  cases parameter with
  | collapse => exact absurd rfl h
  | title | description | pluginVersion => exact shown_text style _
  | unit | thresholdsMode | pieType | colorMode | justifyMode | orientation =>
      exact shown_keyword style _

theorem shown_literal?_collapse :
    shown style (collapse.literal? panel) =
      some (styled style (if panel.collapsed = some true then "true" else "false")) := by
  rw [literal?, shown_flag, Option.map_some]
  cases panel.collapsed with
  | none => rfl
  | some b => cases b <;> rfl

theorem supplies_wording_iff (h : parameter ≠ .collapse) :
    Supplies style panel parameter value ↔
      ∃ text, visible (parameter.wording? panel) = some text ∧ quoted text = value := by
  constructor
  · rintro (⟨held, notEmpty⟩ | _)
    · exact ⟨_, Option.filter_eq_some_iff.mpr ⟨held, by simpa using notEmpty⟩, rfl⟩
    · exact absurd rfl h
  · rintro ⟨text, hvisible, rfl⟩
    obtain ⟨held, notEmpty⟩ := Option.filter_eq_some_iff.mp hvisible
    exact .wording held (by simpa using notEmpty)

theorem supplies_collapse_iff :
    Supplies style panel .collapse value ↔
      styled style (if panel.collapsed = some true then "true" else "false") = value := by
  constructor
  · rintro (⟨held, _⟩ | _)
    · cases held
    · rfl
  · rintro rfl
    exact .collapse

theorem shown_literal?_eq_some_iff :
    shown style (parameter.literal? panel) = some value ↔
      Supplies style panel parameter value := by
  by_cases h : parameter = .collapse
  · subst h
    rw [shown_literal?_collapse, Option.some_inj, supplies_collapse_iff]
  · rw [shown_literal?_wording h, Option.map_eq_some_iff, supplies_wording_iff h]

end Supplied

end Parameter

namespace Panel

-- The arguments of the call, each with its parameter.
def supplied (style : LiteralStyle) (panel : Panel) (kind : PanelKind) :
    List (Parameter × String) :=
  labelled (fun parameter => shown style (parameter.literal? panel)) kind.parameters

section Table

variable (style : LiteralStyle) (kind : PanelKind) (panel : Panel)

theorem fields_eq_map_parameters :
    panel.fields kind =
      kind.parameters.map fun parameter => (parameter.name, parameter.literal? panel) := by
  cases kind <;> rfl

theorem present_fields :
    present style (panel.fields kind) =
      (panel.supplied style kind).map fun argument => (argument.1.name, argument.2) := by
  rw [fields_eq_map_parameters, present, List.filterMap_map, supplied, labelled, List.map_filterMap]
  simp only [Option.map_map, Function.comp_def]

theorem call_eq_join_supplied :
    panel.call style kind =
      kind.path ++ "(" ++ String.join ((panel.supplied style kind).map fun argument =>
        argument.1.name ++ "=" ++ argument.2 ++ ",") ++ ")" := by
  have hopen : "grafana." ++ kind.constructor ++ ".new(" = kind.path ++ "(" := by
    rw [PanelKind.path_eq]
    simp only [String.append_assoc]
    rfl
  rw [call, arguments_written, present_fields, List.map_map, hopen]
  rfl

theorem supplied_sublist : ((panel.supplied style kind).map Prod.fst).Sublist kind.parameters :=
  labelled_sublist _ kind.parameters

theorem mem_supplied_iff (parameter : Parameter) (value : String) :
    (parameter, value) ∈ panel.supplied style kind ↔
      parameter ∈ kind.parameters ∧ parameter.Supplies style panel value := by
  rw [← Parameter.shown_literal?_eq_some_iff]
  exact mem_labelled_iff parameter value

-- Nothing of a panel but what it supplies to its kind's parameters reaches the call.
theorem supplied_congr {other : Panel}
    (h : ∀ parameter ∈ kind.parameters, ∀ value,
      parameter.Supplies style other value ↔ parameter.Supplies style panel value) :
    other.supplied style kind = panel.supplied style kind := by
  refine labelled_congr fun parameter hparameter => Option.ext fun value => ?_
  rw [Parameter.shown_literal?_eq_some_iff, Parameter.shown_literal?_eq_some_iff]
  exact h parameter hparameter value

-- The call is the line of the table that stands for the kind, whatever the panel's own type is.
theorem call_eq_table :
    (∃ arguments : List (Parameter × String),
      panel.call style kind =
          kind.path ++ "(" ++ String.join (arguments.map fun argument =>
            argument.1.name ++ "=" ++ argument.2 ++ ",") ++ ")" ∧
        (arguments.map Prod.fst).Sublist kind.parameters ∧
        ∀ parameter value, (parameter, value) ∈ arguments ↔
          parameter ∈ kind.parameters ∧ parameter.Supplies style panel value) ∧
      ∀ other : Panel,
        (∀ parameter ∈ kind.parameters, ∀ value,
          parameter.Supplies style other value ↔ parameter.Supplies style panel value) →
        other.call style kind = panel.call style kind := by
  refine ⟨⟨panel.supplied style kind, call_eq_join_supplied style kind panel,
    supplied_sublist style kind panel, mem_supplied_iff style kind panel⟩, fun other h => ?_⟩
  rw [call_eq_join_supplied, call_eq_join_supplied, supplied_congr style kind panel h]

-- A row with queries and options of its own, asked for as the gauge that it resembles.
theorem call_eq_table_at_gauge :
    let panel : Panel :=
      { type := "gauge", title := some "it's", gridPos := ⟨8, 6, 0, 0⟩,
        fieldConfig := ⟨{ unit := some "ms" }⟩ }
    let other : Panel :=
      { type := "row", title := some "it's", description := some "", gridPos := ⟨1, 24, 0, 9⟩,
        collapsed := some true,
        fieldConfig := ⟨
          { custom := some .null, color := some .null, unit := some "ms",
            thresholds := some ⟨none⟩ }⟩,
        options := { pieType := some "donut" }, targets := some [{ expr := "up" }] }
    (∀ parameter ∈ PanelKind.gauge.parameters, ∀ value,
        parameter.Supplies .bare other value ↔ parameter.Supplies .bare panel value) ∧
      other.call .bare .gauge = panel.call .bare .gauge ∧
      panel.call .bare .gauge = "grafana.gaugePanel.new(title='it's',unit='ms',)" := by
  intro panel other
  have hsame : ∀ parameter ∈ PanelKind.gauge.parameters, ∀ value,
      parameter.Supplies .bare other value ↔ parameter.Supplies .bare panel value := by
    intro parameter hparameter value
    have hshown :
        shown .bare (parameter.literal? other) = shown .bare (parameter.literal? panel) := by
      revert parameter
      decide
    rw [← Parameter.shown_literal?_eq_some_iff, hshown, Parameter.shown_literal?_eq_some_iff]
  exact ⟨hsame, (call_eq_table .bare .gauge panel).2 other hsame, by decide⟩

end Table

end Panel

end DashboardScript
