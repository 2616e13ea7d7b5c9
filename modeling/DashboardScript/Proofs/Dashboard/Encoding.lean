import DashboardScript.Dashboard.Format
import DashboardScript.Proofs.Json.Records

namespace DashboardScript

open Json Decoder

section Encoding

-- The plainest JSON text of each record. A member without a value is left out.

def flagText (b : Bool) : String := if b then "true" else "false"

def GridPos.toJson (pos : GridPos) : String :=
  recordText [("h", some (toString pos.h)), ("w", some (toString pos.w)),
    ("x", some (toString pos.x)), ("y", some (toString pos.y))]

def Thresholds.toJson (thresholds : Thresholds) : String :=
  recordText [("mode", thresholds.mode.map stringText)]

def FieldDefaults.toJson (defaults : FieldDefaults) : String :=
  recordText [("custom", defaults.custom.map Value.compact),
    ("color", defaults.color.map Value.compact),
    ("unit", defaults.unit.map stringText),
    ("thresholds", defaults.thresholds.map Thresholds.toJson)]

def FieldConfig.toJson (config : FieldConfig) : String :=
  recordText [("defaults", some config.defaults.toJson)]

def PanelOptions.toJson (options : PanelOptions) : String :=
  recordText [("pieType", options.pieType.map stringText),
    ("colorMode", options.colorMode.map stringText),
    ("justifyMode", options.justifyMode.map stringText),
    ("orientation", options.orientation.map stringText)]

def Target.toJson (target : Target) : String :=
  recordText [("expr", some (stringText target.expr)),
    ("format", target.format.map stringText),
    ("legendFormat", target.legendFormat.map stringText),
    ("intervalFactor", target.intervalFactor.map Number.text),
    ("hide", target.hide.map flagText),
    ("instant", target.instant.map flagText),
    ("interval", target.interval.map stringText)]

def targetsText (targets : List Target) : String := arrayText (targets.map Target.toJson)

def Panel.toJson (panel : Panel) : String :=
  recordText [("type", some (stringText panel.type)),
    ("title", panel.title.map stringText),
    ("description", panel.description.map stringText),
    ("gridPos", some panel.gridPos.toJson),
    ("pluginVersion", panel.pluginVersion.map stringText),
    ("collapsed", panel.collapsed.map flagText),
    ("fieldConfig", some panel.fieldConfig.toJson),
    ("options", some panel.options.toJson),
    ("targets", panel.targets.map targetsText)]

def entryText : Option Panel → String
  | none => "null"
  | some panel => panel.toJson

def Dashboard.toJson (dashboard : Dashboard) : String :=
  recordText [("title", dashboard.title.map stringText),
    ("schemaVersion", dashboard.schemaVersion.map toString),
    ("tags", some (arrayText (dashboard.tags.map stringText))),
    ("panels", some (arrayText (dashboard.panels.map entryText)))]

end Encoding

-- A number that is whole and fits into 64 bits, signed or not.
def Target.IsExact (target : Target) : Prop :=
  ∀ n ∈ target.intervalFactor,
    ∃ k : Int, n = .integer k ∧ -0x8000000000000000 ≤ k ∧ k ≤ 0xffffffffffffffff

-- Values of no fixed shape are absent.
structure Panel.IsExact (panel : Panel) : Prop where
  custom : panel.fieldConfig.defaults.custom = none
  color : panel.fieldConfig.defaults.color = none
  targets : ∀ target ∈ panel.targetList, target.IsExact

def Dashboard.IsExact (dashboard : Dashboard) : Prop :=
  ∀ panel, some panel ∈ dashboard.panels → panel.IsExact

section Optional

variable {depth : Nat} {key : String}

theorem optional_text (value : Option String) :
    (⟨key, optional text, some none⟩ : Json.Field (Option String)).SpelledAs depth
      (value.map stringText) value :=
  optional_spelledAs fun s _ => ⟨(text_spells s).mono (Nat.zero_le _), isPresent_stringText s⟩

theorem optional_flag (value : Option Bool) :
    (⟨key, optional flag, some none⟩ : Json.Field (Option Bool)).SpelledAs depth
      (value.map flagText) value :=
  optional_spelledAs fun b _ => ⟨(flag_spells b).mono (Nat.zero_le _), isPresent_boolean b⟩

theorem optional_word (value : Option UInt32) :
    (⟨key, optional word, some none⟩ : Json.Field (Option UInt32)).SpelledAs depth
      (value.map toString) value :=
  optional_spelledAs fun w _ => ⟨(word_spells w).mono (Nat.zero_le _), isPresent_integer w.toNat⟩

end Optional

theorem GridPos.spells (pos : GridPos) : Spells shape.decoder 1 pos.toJson pos :=
  shape.decoder_spells (pos.h, pos.w, pos.x, pos.y, ()) (by decide)
    ⟨rfl, word_spells pos.h, rfl, word_spells pos.w, rfl, word_spells pos.x, rfl,
      word_spells pos.y, rfl⟩

theorem Thresholds.spells (thresholds : Thresholds) :
    Spells shape.decoder 1 thresholds.toJson thresholds :=
  shape.decoder_spells (thresholds.mode, ()) (by decide) ⟨rfl, optional_text thresholds.mode, rfl⟩

theorem FieldDefaults.spells (defaults : FieldDefaults) (hcustom : defaults.custom = none)
    (hcolor : defaults.color = none) : Spells shape.decoder 2 defaults.toJson defaults := by
  have hvalue : ∀ (key : String) (value : Option Value), value = none →
      (⟨key, optional any, some none⟩ : Json.Field (Option Value)).SpelledAs 1
        (value.map Value.compact) value := by
    rintro key _ rfl
    rfl
  have hthresholds : ∀ thresholds ∈ defaults.thresholds,
      Spells Thresholds.shape.decoder 1 thresholds.toJson thresholds ∧
        IsPresent thresholds.toJson :=
    fun thresholds _ => ⟨thresholds.spells, isPresent_recordText _⟩
  exact shape.decoder_spells
    (defaults.custom, defaults.color, defaults.unit, defaults.thresholds, ()) (by decide)
    ⟨rfl, hvalue "custom" _ hcustom, rfl, hvalue "color" _ hcolor, rfl, optional_text defaults.unit,
      rfl, optional_spelledAs hthresholds, rfl⟩

theorem FieldConfig.spells (config : FieldConfig) (hcustom : config.defaults.custom = none)
    (hcolor : config.defaults.color = none) : Spells shape.decoder 3 config.toJson config :=
  shape.decoder_spells (config.defaults, ()) (by decide)
    ⟨rfl, config.defaults.spells hcustom hcolor, rfl⟩

theorem PanelOptions.spells (options : PanelOptions) :
    Spells shape.decoder 1 options.toJson options :=
  shape.decoder_spells
    (options.pieType, options.colorMode, options.justifyMode, options.orientation, ()) (by decide)
    ⟨rfl, optional_text options.pieType, rfl, optional_text options.colorMode, rfl,
      optional_text options.justifyMode, rfl, optional_text options.orientation, rfl⟩

theorem Target.spells (target : Target) (h : target.IsExact) :
    Spells shape.decoder 1 target.toJson target := by
  have hfactor : ∀ n ∈ target.intervalFactor, Spells number 0 n.text n ∧ IsPresent n.text := by
    intro n hn
    obtain ⟨k, rfl, hlow, hhigh⟩ := h n hn
    exact ⟨number_spells hlow hhigh, isPresent_integer k⟩
  exact shape.decoder_spells
    (target.expr, target.format, target.legendFormat, target.intervalFactor, target.hide,
      target.instant, target.interval, ()) (by decide)
    ⟨rfl, text_spells target.expr, rfl, optional_text target.format, rfl,
      optional_text target.legendFormat, rfl, optional_spelledAs hfactor, rfl,
      optional_flag target.hide, rfl, optional_flag target.instant, rfl,
      optional_text target.interval, rfl⟩

theorem forall₂_map_spells {α : Type} {decoder : Decoder α} {depth : Nat} {write : α → String}
    {values : List α} (h : ∀ a ∈ values, Spells decoder depth (write a) a) :
    List.Forall₂ (Spells decoder depth) (values.map write) values := by
  rw [List.forall₂_map_left_iff, List.forall₂_same]
  exact h

theorem targets_spells (targets : List Target) (h : ∀ target ∈ targets, target.IsExact) :
    Spells (list Target.shape.decoder) 2 (targetsText targets) targets :=
  list_spells (forall₂_map_spells fun target htarget => target.spells (h target htarget))

theorem Panel.spells (panel : Panel) (h : panel.IsExact) :
    Spells shape.decoder 4 panel.toJson panel := by
  have htargets : ∀ targets ∈ panel.targets,
      Spells (list Target.shape.decoder) 3 (targetsText targets) targets ∧
        IsPresent (targetsText targets) := by
    intro targets htargets
    have hexact : ∀ target ∈ targets, target.IsExact := by
      intro target htarget
      refine h.targets target ?_
      rw [targetList, Option.mem_def.mp htargets]
      exact htarget
    exact ⟨(targets_spells targets hexact).mono (by decide), isPresent_arrayText _⟩
  exact shape.decoder_spells
    (panel.type, panel.title, panel.description, panel.gridPos, panel.pluginVersion,
      panel.collapsed, panel.fieldConfig, panel.options, panel.targets, ()) (by decide)
    ⟨rfl, (text_spells panel.type).mono (by decide), rfl, optional_text panel.title, rfl,
      optional_text panel.description, rfl, panel.gridPos.spells.mono (by decide), rfl,
      optional_text panel.pluginVersion, rfl, optional_flag panel.collapsed, rfl,
      panel.fieldConfig.spells h.custom h.color, rfl, panel.options.spells.mono (by decide), rfl,
      optional_spelledAs htargets, rfl⟩

-- A null among the panels is no panel.
theorem entry_spells (entry : Option Panel) (h : ∀ panel ∈ entry, panel.IsExact) :
    Spells (optional Panel.shape.decoder) 4 (entryText entry) entry := by
  cases entry with
  | none => exact (optional_null Panel.shape.decoder).mono (by decide)
  | some panel => exact optional_some (panel.spells (h panel rfl)) (isPresent_recordText _)

theorem Dashboard.spells (dashboard : Dashboard) (h : dashboard.IsExact) :
    Spells shape.decoder 6 dashboard.toJson dashboard := by
  have htags : Spells (list text) 1 (arrayText (dashboard.tags.map stringText)) dashboard.tags :=
    list_spells (forall₂_map_spells fun tag _ => text_spells tag)
  have hpanels : Spells (list (optional Panel.shape.decoder)) 5
      (arrayText (dashboard.panels.map entryText)) dashboard.panels := by
    refine list_spells (forall₂_map_spells fun entry hentry => entry_spells entry ?_)
    rintro panel rfl
    exact h panel hentry
  exact shape.decoder_spells
    (dashboard.title, dashboard.schemaVersion, dashboard.tags, dashboard.panels, ()) (by decide)
    ⟨rfl, optional_text dashboard.title, rfl, optional_word dashboard.schemaVersion, rfl,
      htags.mono (by decide), rfl, hpanels, rfl⟩

-- A dashboard is read back from its own text, with every null at its place and nothing that is
-- absent taken for something empty.
theorem Dashboard.ofJson_toJson (dashboard : Dashboard) (h : dashboard.IsExact) :
    ofJson dashboard.toJson = .ok dashboard :=
  decode_of_spells (dashboard.spells h) (by decide)

-- Of what can be absent, one of each is absent here, one is empty and one has a value.
theorem Dashboard.ofJson_toJson_sparse :
    let lowest : Target :=
      { expr := "up\n", intervalFactor := some (.integer (-0x8000000000000000)) }
    let highest : Target :=
      { expr := "", intervalFactor := some (.integer 0xffffffffffffffff), hide := some false }
    let row : Panel :=
      { type := "row", gridPos := ⟨0, 1, 10, 0xffffffff⟩, targets := some [lowest, highest] }
    let gauge : Panel :=
      { type := "gauge", gridPos := ⟨8, 12, 0, 0⟩, title := some "\"\\", targets := some [],
        fieldConfig := { defaults := { thresholds := some ⟨none⟩ } } }
    let dashboard : Dashboard :=
      { title := some "", tags := ["b", "a"], panels := [none, some row, none, some gauge] }
    ofJson dashboard.toJson = .ok dashboard := by
  intro lowest highest row gauge dashboard
  have hrow : row.IsExact := by
    refine ⟨rfl, rfl, fun target htarget n hn => ?_⟩
    simp only [row, Panel.targetList, Option.getD_some, List.mem_cons, List.not_mem_nil,
      or_false] at htarget
    rcases htarget with rfl | rfl <;> obtain rfl := Option.some.inj hn
    · exact ⟨-0x8000000000000000, rfl, by decide, by decide⟩
    · exact ⟨0xffffffffffffffff, rfl, by decide, by decide⟩
  have hgauge : gauge.IsExact := ⟨rfl, rfl, fun target htarget => absurd htarget List.not_mem_nil⟩
  refine ofJson_toJson dashboard fun panel hpanel => ?_
  simp only [dashboard, List.mem_cons, Option.some.injEq, reduceCtorEq, List.not_mem_nil, or_false,
    false_or] at hpanel
  rcases hpanel with rfl | rfl
  · exact hrow
  · exact hgauge

end DashboardScript
