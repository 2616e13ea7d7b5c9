import DashboardScript.Proofs.Conversion.Entries

namespace DashboardScript

def Diagnostic.isUnsupported : Diagnostic → Bool
  | .nullPanel _ => false
  | .unsupportedPanel .. => true

namespace Conversion

-- The panel that ends a run which aborts is the first diagnostic of its kind in one that skips.
theorem find?_isUnsupported_diagnosticsFrom (index : Nat) (list : List (Option Panel)) :
    (diagnosticsFrom index list).find? Diagnostic.isUnsupported =
      (firstUnsupported? index list).map fun e => .unsupportedPanel e.index e.type := by
  induction list generalizing index with
  | nil => rfl
  | cons entry rest ih =>
      rw [diagnosticsFrom_cons, firstUnsupported?]
      cases EntryClass.of entry <;>
        simp [ih, EntryClass.diagnostic?, Diagnostic.isUnsupported]

theorem firstUnsupported?_eq_some_iff (index : Nat) (list : List (Option Panel))
    (e : UnsupportedPanel) :
    firstUnsupported? index list = some e ↔
      (diagnosticsFrom index list).find? Diagnostic.isUnsupported =
        some (.unsupportedPanel e.index e.type) := by
  rw [find?_isUnsupported_diagnosticsFrom, Option.map_eq_some_iff]
  constructor
  · intro h
    exact ⟨e, h, rfl⟩
  · rintro ⟨found, hfound, heq⟩
    obtain ⟨hindex, htype⟩ := Diagnostic.unsupportedPanel.inj heq
    have he : found = e := by
      cases found
      cases e
      congr
    exact he ▸ hfound

theorem exists_firstUnsupported?_iff (index : Nat) (list : List (Option Panel)) :
    (∃ e, firstUnsupported? index list = some e) ↔
      ∃ position type, .unsupportedPanel position type ∈ diagnosticsFrom index list := by
  rw [← Option.isSome_iff_exists]
  have hsome : (firstUnsupported? index list).isSome =
      ((diagnosticsFrom index list).find? Diagnostic.isUnsupported).isSome := by
    rw [find?_isUnsupported_diagnosticsFrom, Option.isSome_map]
  rw [hsome, List.find?_isSome]
  constructor
  · rintro ⟨diagnostic, hmem, hunsupported⟩
    cases diagnostic with
    | nullPanel position => cases hunsupported
    | unsupportedPanel position type => exact ⟨position, type, hmem⟩
  · rintro ⟨position, type, hmem⟩
    exact ⟨_, hmem, rfl⟩

theorem firstUnsupported?_getElem? (index : Nat) (list : List (Option Panel))
    (e : UnsupportedPanel) (h : firstUnsupported? index list = some e) :
    ∃ panel, list[e.index - index]? = some (some panel) ∧ panel.type = e.type := by
  induction list generalizing index with
  | nil => simp [firstUnsupported?] at h
  | cons entry rest ih =>
      cases hclass : EntryClass.of entry with
      | unsupported type =>
          obtain ⟨panel, rfl, htype, _⟩ := (EntryClass.of_eq_unsupported_iff _ _).mp hclass
          simp only [firstUnsupported?, hclass, Option.some.injEq] at h
          exact ⟨panel, by simp [← h], by rw [htype, ← h]⟩
      | null | supported panel kind =>
          have hrest : firstUnsupported? (index + 1) rest = some e := by
            simpa [firstUnsupported?, hclass] using h
          have hle := firstUnsupported?_index_le _ _ _ hrest
          rw [show e.index - index = e.index - (index + 1) + 1 by omega]
          simpa using ih _ hrest

-- The search reads no entry behind the one that it finds.
theorem firstUnsupported?_of_take_eq (index : Nat) (list other : List (Option Panel))
    (e : UnsupportedPanel) (h : firstUnsupported? index list = some e)
    (htake : other.take (e.index - index + 1) = list.take (e.index - index + 1)) :
    firstUnsupported? index other = some e := by
  induction list generalizing index other with
  | nil => simp [firstUnsupported?] at h
  | cons entry rest ih =>
      cases other with
      | nil => simp at htake
      | cons entry' rest' =>
          simp only [List.take_succ_cons, List.cons.injEq] at htake
          obtain ⟨rfl, htake⟩ := htake
          cases hclass : EntryClass.of entry' with
          | unsupported type => simpa [firstUnsupported?, hclass] using h
          | null | supported panel kind =>
              have hrest : firstUnsupported? (index + 1) rest = some e := by
                simpa [firstUnsupported?, hclass] using h
              have hle := firstUnsupported?_index_le _ _ _ hrest
              rw [show e.index - index = e.index - (index + 1) + 1 by omega] at htake
              simpa [firstUnsupported?, hclass] using ih _ _ hrest htake

theorem convert_abort_error_iff (settings : Settings) (dashboard : Dashboard)
    (e : UnsupportedPanel) :
    (convert { settings with unsupportedPolicy := .abort } dashboard).result = .error e ↔
      firstUnsupported? 0 dashboard.panels = some e := by
  cases hfirst : firstUnsupported? 0 dashboard.panels with
  | none => simp [convert_abort_of_none settings dashboard hfirst]
  | some found => simp [convert_abort_of_some settings dashboard found hfirst]

-- The policies differ only in what they make of the first panel without a kind. Where there is one,
-- a run that aborts fails with its place and type, whatever comes behind it. Where there is none,
-- the two runs are the same, their events included.
theorem abort_agrees_with_skip (settings : Settings) (dashboard : Dashboard) :
    let aborted := convert { settings with unsupportedPolicy := .abort }
    let skipped := convert { settings with unsupportedPolicy := .skip } dashboard
    ∃ conversion, skipped.result = .ok conversion ∧
      ((∃ e, (aborted dashboard).result = .error e) ↔
        ∃ index type, .unsupportedPanel index type ∈ conversion.diagnostics) ∧
      (∀ e, (aborted dashboard).result = .error e ↔
        conversion.diagnostics.find? Diagnostic.isUnsupported =
          some (.unsupportedPanel e.index e.type)) ∧
      (∀ e, (aborted dashboard).result = .error e →
        (∃ panel, dashboard.panels[e.index]? = some (some panel) ∧ panel.type = e.type) ∧
        ∀ other : Dashboard,
          other.panels.take (e.index + 1) = dashboard.panels.take (e.index + 1) →
            (aborted other).result = .error e) ∧
      ∀ succeeded, (aborted dashboard).result = .ok succeeded → aborted dashboard = skipped := by
  intro aborted skipped
  refine ⟨kept settings dashboard, ?_, ?_, ?_, ?_, ?_⟩
  · exact congrArg Traced.result (convert_skip settings dashboard)
  · simp only [aborted, convert_abort_error_iff]
    exact exists_firstUnsupported?_iff 0 dashboard.panels
  · intro e
    rw [convert_abort_error_iff]
    exact firstUnsupported?_eq_some_iff 0 dashboard.panels e
  · intro e he
    have hfirst := (convert_abort_error_iff settings dashboard e).mp he
    refine ⟨firstUnsupported?_getElem? 0 dashboard.panels e hfirst, ?_⟩
    intro other htake
    exact (convert_abort_error_iff settings other e).mpr
      (firstUnsupported?_of_take_eq 0 dashboard.panels other.panels e hfirst htake)
  · intro succeeded hok
    calc aborted dashboard = ⟨eventsFrom 0 dashboard.panels, .ok (kept settings dashboard)⟩ :=
          convert_of_ok _ dashboard succeeded hok
      _ = skipped := (convert_skip settings dashboard).symm

-- A null and a table, and then the same two before a row.
theorem abort_agrees_with_skip_at_table :
    let table : Panel := { type := "table", gridPos := ⟨8, 24, 0, 0⟩ }
    let row : Panel := { type := "row", gridPos := ⟨1, 24, 0, 8⟩ }
    (convert {} { panels := [none, some table] }).result = .error ⟨1, "table"⟩ ∧
      (convert {} { panels := [none, some table, some row] }).result = .error ⟨1, "table"⟩ := by
  intro table row
  have h : (convert {} { panels := [none, some table] }).result = .error ⟨1, "table"⟩ := rfl
  obtain ⟨_, _, _, _, hstops, _⟩ := abort_agrees_with_skip {} { panels := [none, some table] }
  exact ⟨h, (hstops ⟨1, "table"⟩ h).2 { panels := [none, some table, some row] } rfl⟩

end Conversion

end DashboardScript
