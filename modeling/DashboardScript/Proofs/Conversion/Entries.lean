import DashboardScript.Conversion

namespace DashboardScript

namespace PanelKind

theorem mem_all (kind : PanelKind) : kind ∈ all := by
  cases kind <;> decide

theorem ofName?_eq_none_iff (type : String) : ofName? type = none ↔ type ∉ all.map name := by
  simp [ofName?, List.find?_eq_none]

end PanelKind

namespace Script

def addPanels (script : Script) (panels : List (Panel × PanelKind)) : Script :=
  panels.foldl (fun script entry => script.addPanel entry.1 entry.2) script

@[simp] theorem addPanels_nil (script : Script) : script.addPanels [] = script := rfl

@[simp] theorem addPanels_cons (script : Script) (panel : Panel) (kind : PanelKind)
    (rest : List (Panel × PanelKind)) :
    script.addPanels ((panel, kind) :: rest) = (script.addPanel panel kind).addPanels rest := rfl

theorem addPanels_panels (script : Script) (panels : List (Panel × PanelKind)) :
    (script.addPanels panels).panels = script.panels + panels.length := by
  induction panels generalizing script with
  | nil => rfl
  | cons entry rest ih =>
      rw [addPanels_cons, ih, List.length_cons]
      simp only [addPanel]
      omega

theorem addPanels_text (script : Script) (panels : List (Panel × PanelKind)) :
    (script.addPanels panels).text = script.text ++
      String.join (panels.map fun entry => block script.style entry.1 entry.2) := by
  induction panels generalizing script with
  | nil => simp
  | cons entry rest ih =>
      rw [addPanels_cons, ih]
      simp only [addPanel, List.map_cons, String.join_cons, String.append_assoc]

end Script

namespace Conversion

-- What an entry of a dashboard is to the loop.
inductive EntryClass where
  | null
  | unsupported (type : String)
  | supported (panel : Panel) (kind : PanelKind)

namespace EntryClass

def of : Option Panel → EntryClass
  | none => .null
  | some panel =>
    match PanelKind.ofName? panel.type with
    | some kind => .supported panel kind
    | none => .unsupported panel.type

def supported? : EntryClass → Option (Panel × PanelKind)
  | .supported panel kind => some (panel, kind)
  | _ => none

def diagnostic? (index : Nat) : EntryClass → Option Diagnostic
  | .null => some (.nullPanel index)
  | .unsupported type => some (.unsupportedPanel index type)
  | .supported .. => none

def event (index : Nat) : EntryClass → Event
  | .null => .skipped (.nullPanel index)
  | .unsupported type => .skipped (.unsupportedPanel index type)
  | .supported panel kind => .added kind index panel.targetList.length

theorem of_eq_unsupported_iff (entry : Option Panel) (type : String) :
    of entry = .unsupported type ↔
      ∃ panel, entry = some panel ∧ panel.type = type ∧ PanelKind.ofName? type = none := by
  cases entry with
  | none => simp [of]
  | some panel =>
      cases hkind : PanelKind.ofName? panel.type with
      | none =>
          simp only [of, hkind, unsupported.injEq, Option.some.injEq, exists_eq_left']
          exact ⟨fun h => ⟨h, h ▸ hkind⟩, fun h => h.1⟩
      | some kind =>
          simp only [of, hkind, reduceCtorEq, Option.some.injEq, exists_eq_left', false_iff]
          rintro ⟨rfl, hnone⟩
          simp [hkind] at hnone

end EntryClass

open EntryClass

-- The panels that get a block, each with the kind that its type names.
def supported (list : List (Option Panel)) : List (Panel × PanelKind) :=
  list.filterMap fun entry => (EntryClass.of entry).supported?

def diagnosticsFrom (index : Nat) (list : List (Option Panel)) : List Diagnostic :=
  (list.zipIdx index).filterMap fun entry => (EntryClass.of entry.1).diagnostic? entry.2

def eventsFrom (index : Nat) (list : List (Option Panel)) : List Event :=
  (list.zipIdx index).map fun entry => (EntryClass.of entry.1).event entry.2

theorem supported_cons (entry : Option Panel) (rest : List (Option Panel)) :
    supported (entry :: rest) = (EntryClass.of entry).supported?.toList ++ supported rest := by
  unfold supported
  rw [List.filterMap_cons]
  cases (EntryClass.of entry).supported? <;> rfl

theorem diagnosticsFrom_cons (index : Nat) (entry : Option Panel) (rest : List (Option Panel)) :
    diagnosticsFrom index (entry :: rest) =
      ((EntryClass.of entry).diagnostic? index).toList ++ diagnosticsFrom (index + 1) rest := by
  unfold diagnosticsFrom
  rw [List.zipIdx_cons, List.filterMap_cons]
  cases (EntryClass.of entry).diagnostic? index <;> rfl

theorem eventsFrom_cons (index : Nat) (entry : Option Panel) (rest : List (Option Panel)) :
    eventsFrom index (entry :: rest) =
      (EntryClass.of entry).event index :: eventsFrom (index + 1) rest := rfl

def firstUnsupported? : (index : Nat) → List (Option Panel) → Option UnsupportedPanel
  | _, [] => none
  | index, entry :: rest =>
    match EntryClass.of entry with
    | .unsupported type => some ⟨index, type⟩
    | _ => firstUnsupported? (index + 1) rest

-- One round of the loop, by the class of its entry.
theorem entries_cons (policy : UnsupportedPolicy) (index : Nat) (entry : Option Panel)
    (rest : List (Option Panel)) (script : Script) :
    entries policy index (entry :: rest) script =
      match EntryClass.of entry, policy with
      | .null, _ => leaveOut (.nullPanel index) (entries policy (index + 1) rest script)
      | .supported panel kind, _ =>
        (entries policy (index + 1) rest (script.addPanel panel kind)).after
          (.added kind index panel.targetList.length)
      | .unsupported type, .skip =>
        leaveOut (.unsupportedPanel index type) (entries policy (index + 1) rest script)
      | .unsupported type, .abort => .error ⟨index, type⟩ := by
  cases entry with
  | none => rfl
  | some panel =>
      cases hkind : PanelKind.ofName? panel.type <;> cases policy <;> simp [entries, of, hkind]

-- A run that skips treats every entry by its class alone.
theorem entries_skip (index : Nat) (list : List (Option Panel)) (script : Script) :
    entries .skip index list script =
      ⟨eventsFrom index list,
        .ok (script.addPanels (supported list), diagnosticsFrom index list)⟩ := by
  induction list generalizing index script with
  | nil => rfl
  | cons entry rest ih =>
      rw [entries_cons, supported_cons, diagnosticsFrom_cons, eventsFrom_cons]
      cases EntryClass.of entry <;>
        simp [ih, leaveOut, Traced.after, Traced.map, Except.map, supported?, diagnostic?, event]

theorem entries_abort_of_none (index : Nat) (list : List (Option Panel)) (script : Script)
    (h : firstUnsupported? index list = none) :
    entries .abort index list script = entries .skip index list script := by
  induction list generalizing index script with
  | nil => rfl
  | cons entry rest ih =>
      rw [entries_cons, entries_cons]
      cases hclass : EntryClass.of entry with
      | unsupported type => simp [firstUnsupported?, hclass] at h
      | null => simp only [ih _ _ (by simpa [firstUnsupported?, hclass] using h)]
      | supported panel kind => simp only [ih _ _ (by simpa [firstUnsupported?, hclass] using h)]

theorem firstUnsupported?_index_le (index : Nat) (list : List (Option Panel))
    (e : UnsupportedPanel) (h : firstUnsupported? index list = some e) : index ≤ e.index := by
  induction list generalizing index with
  | nil => simp [firstUnsupported?] at h
  | cons entry rest ih =>
      simp only [firstUnsupported?] at h
      split at h
      · simp only [Option.some.injEq] at h
        exact h ▸ Nat.le_refl index
      · exact Nat.le_of_succ_le (ih _ h)

-- A run that aborts has the events of the entries before the one that stops it.
theorem entries_abort_of_some (index : Nat) (list : List (Option Panel)) (script : Script)
    (e : UnsupportedPanel) (h : firstUnsupported? index list = some e) :
    entries .abort index list script =
      ⟨eventsFrom index (list.take (e.index - index)), .error e⟩ := by
  induction list generalizing index script with
  | nil => simp [firstUnsupported?] at h
  | cons entry rest ih =>
      rw [entries_cons]
      cases hclass : EntryClass.of entry with
      | unsupported type =>
          simp only [firstUnsupported?, hclass, Option.some.injEq] at h
          simp [← h, eventsFrom, Traced.error]
      | null | supported panel kind =>
          have hrest : firstUnsupported? (index + 1) rest = some e := by
            simpa [firstUnsupported?, hclass] using h
          have hle := firstUnsupported?_index_le _ _ _ hrest
          have htake : e.index - index = e.index - (index + 1) + 1 := by omega
          simp [ih _ _ hrest, htake, hclass, leaveOut, Traced.after, Traced.map, Except.map,
            eventsFrom_cons, event]

-- The conversion that leaves out the entries without a kind and nothing else.
def kept (settings : Settings) (dashboard : Dashboard) : Conversion :=
  ofProgress ((Script.start (preamble settings.preamble dashboard) settings.literalStyle).addPanels
    (supported dashboard.panels), diagnosticsFrom 0 dashboard.panels)

@[simp] theorem kept_diagnostics (settings : Settings) (dashboard : Dashboard) :
    (kept settings dashboard).diagnostics = diagnosticsFrom 0 dashboard.panels := rfl

theorem kept_panels (settings : Settings) (dashboard : Dashboard) :
    (kept settings dashboard).panels = (supported dashboard.panels).length := by
  simp [kept, ofProgress, Script.addPanels_panels, Script.start]

theorem kept_script (settings : Settings) (dashboard : Dashboard) :
    (kept settings dashboard).script = (preamble settings.preamble dashboard).render ++
      String.join ((supported dashboard.panels).map fun entry =>
        Script.block settings.literalStyle entry.1 entry.2) := by
  simp only [kept, ofProgress, Script.addPanels_text, Script.start]

theorem convert_skip (settings : Settings) (dashboard : Dashboard) :
    convert { settings with unsupportedPolicy := .skip } dashboard =
      ⟨eventsFrom 0 dashboard.panels, .ok (kept settings dashboard)⟩ := by
  simp only [convert, entries_skip]
  rfl

theorem convert_abort_of_none (settings : Settings) (dashboard : Dashboard)
    (h : firstUnsupported? 0 dashboard.panels = none) :
    convert { settings with unsupportedPolicy := .abort } dashboard =
      ⟨eventsFrom 0 dashboard.panels, .ok (kept settings dashboard)⟩ := by
  simp only [convert, entries_abort_of_none _ _ _ h, entries_skip]
  rfl

theorem convert_abort_of_some (settings : Settings) (dashboard : Dashboard) (e : UnsupportedPanel)
    (h : firstUnsupported? 0 dashboard.panels = some e) :
    convert { settings with unsupportedPolicy := .abort } dashboard =
      ⟨eventsFrom 0 (dashboard.panels.take e.index), .error e⟩ := by
  simp only [convert, entries_abort_of_some _ _ _ _ h]
  rfl

-- Whatever the policy, a conversion that succeeds is the one that leaves out what has no kind.
theorem convert_of_ok (settings : Settings) (dashboard : Dashboard) (conversion : Conversion)
    (h : (convert settings dashboard).result = .ok conversion) :
    convert settings dashboard =
      ⟨eventsFrom 0 dashboard.panels, .ok (kept settings dashboard)⟩ := by
  cases hpolicy : settings.unsupportedPolicy with
  | skip =>
      rw [show settings = { settings with unsupportedPolicy := .skip } by rw [← hpolicy]]
      exact convert_skip settings dashboard
  | abort =>
      rw [show settings = { settings with unsupportedPolicy := .abort } by rw [← hpolicy]] at h ⊢
      cases hfirst : firstUnsupported? 0 dashboard.panels with
      | none => exact convert_abort_of_none settings dashboard hfirst
      | some e =>
          rw [convert_abort_of_some settings dashboard e hfirst] at h
          cases h

theorem eq_kept_of_ok (settings : Settings) (dashboard : Dashboard) (conversion : Conversion)
    (h : (convert settings dashboard).result = .ok conversion) :
    conversion = kept settings dashboard := by
  have hkept := congrArg Traced.result (convert_of_ok settings dashboard conversion h)
  exact Except.ok.inj (h.symm.trans hkept)

end Conversion

end DashboardScript
