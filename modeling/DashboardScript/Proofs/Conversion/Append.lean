import DashboardScript.Proofs.Conversion.Entries

namespace DashboardScript

-- The same of an entry that stands so many places further back.
def Diagnostic.shift (offset : Nat) : Diagnostic → Diagnostic
  | .nullPanel index => .nullPanel (index + offset)
  | .unsupportedPanel index type => .unsupportedPanel (index + offset) type

def UnsupportedPanel.shift (offset : Nat) (e : UnsupportedPanel) : UnsupportedPanel :=
  ⟨e.index + offset, e.type⟩

namespace Conversion

section Lists

variable (index offset : Nat) (first second : List (Option Panel))

theorem supported_append : supported (first ++ second) = supported first ++ supported second :=
  List.filterMap_append

theorem diagnosticsFrom_append :
    diagnosticsFrom index (first ++ second) =
      diagnosticsFrom index first ++ diagnosticsFrom (index + first.length) second := by
  rw [diagnosticsFrom, List.zipIdx_append, List.filterMap_append, diagnosticsFrom, diagnosticsFrom]

theorem firstUnsupported?_append :
    firstUnsupported? index (first ++ second) =
      (firstUnsupported? index first).or (firstUnsupported? (index + first.length) second) := by
  induction first generalizing index with
  | nil => rfl
  | cons entry rest ih =>
      have hnext : index + (rest.length + 1) = index + 1 + rest.length := by omega
      rw [List.cons_append, firstUnsupported?, firstUnsupported?, List.length_cons, hnext, ih]
      cases EntryClass.of entry <;> rfl

theorem EntryClass.diagnostic?_add (entry : EntryClass) :
    entry.diagnostic? (index + offset) = (entry.diagnostic? index).map (Diagnostic.shift offset) := by
  cases entry <;> rfl

-- Where the list begins has no part in what is found but for the positions.
theorem diagnosticsFrom_add :
    diagnosticsFrom (index + offset) first =
      (diagnosticsFrom index first).map (Diagnostic.shift offset) := by
  induction first generalizing index with
  | nil => rfl
  | cons entry rest ih =>
      have hnext : index + offset + 1 = index + 1 + offset := by omega
      rw [diagnosticsFrom_cons, diagnosticsFrom_cons, List.map_append, hnext, ih,
        EntryClass.diagnostic?_add]
      cases (EntryClass.of entry).diagnostic? index <;> rfl

theorem firstUnsupported?_add :
    firstUnsupported? (index + offset) first =
      (firstUnsupported? index first).map (UnsupportedPanel.shift offset) := by
  induction first generalizing index with
  | nil => rfl
  | cons entry rest ih =>
      have hnext : index + offset + 1 = index + 1 + offset := by omega
      rw [firstUnsupported?, firstUnsupported?, hnext, ih]
      cases EntryClass.of entry <;> rfl

end Lists

-- The panel that ends a conversion, if there is one.
def stop? (policy : UnsupportedPolicy) (panels : List (Option Panel)) : Option UnsupportedPanel :=
  match policy with
  | .skip => none
  | .abort => firstUnsupported? 0 panels

theorem stop?_append (policy : UnsupportedPolicy) (first second : List (Option Panel)) :
    stop? policy (first ++ second) =
      (stop? policy first).or ((stop? policy second).map (UnsupportedPanel.shift first.length)) := by
  cases policy with
  | skip => rfl
  | abort =>
      have hshift := firstUnsupported?_add 0 first.length second
      rw [stop?, firstUnsupported?_append, hshift]
      rfl

-- A conversion fails with the panel that ends it, and else leaves out what has no kind.
theorem convert_result (settings : Settings) (dashboard : Dashboard) :
    (convert settings dashboard).result =
      match stop? settings.unsupportedPolicy dashboard.panels with
      | some e => .error e
      | none => .ok (kept settings dashboard) := by
  obtain ⟨inputPath, style, policy, head⟩ := settings
  cases policy with
  | skip => exact congrArg Traced.result (convert_skip ⟨inputPath, style, .skip, head⟩ dashboard)
  | abort =>
      rw [stop?]
      cases hfirst : firstUnsupported? 0 dashboard.panels with
      | none =>
          exact congrArg Traced.result
            (convert_abort_of_none ⟨inputPath, style, .abort, head⟩ dashboard hfirst)
      | some e =>
          exact congrArg Traced.result
            (convert_abort_of_some ⟨inputPath, style, .abort, head⟩ dashboard e hfirst)

theorem result_eq_ok_iff (settings : Settings) (dashboard : Dashboard) (conversion : Conversion) :
    (convert settings dashboard).result = .ok conversion ↔
      stop? settings.unsupportedPolicy dashboard.panels = none ∧
        conversion = kept settings dashboard := by
  rw [convert_result]
  cases stop? settings.unsupportedPolicy dashboard.panels with
  | some e => simp
  | none => simp [eq_comm]

theorem result_eq_error_iff (settings : Settings) (dashboard : Dashboard) (e : UnsupportedPanel) :
    (convert settings dashboard).result = .error e ↔
      stop? settings.unsupportedPolicy dashboard.panels = some e := by
  rw [convert_result]
  cases stop? settings.unsupportedPolicy dashboard.panels <;> simp

-- What a script has behind its head.
def body (style : Script.LiteralStyle) (panels : List (Option Panel)) : String :=
  String.join ((supported panels).map fun taken => Script.block style taken.1 taken.2)

theorem kept_eq (settings : Settings) (dashboard : Dashboard) :
    kept settings dashboard =
      ⟨(preamble settings.preamble dashboard).render ++ body settings.literalStyle dashboard.panels,
        diagnosticsFrom 0 dashboard.panels, (supported dashboard.panels).length⟩ := by
  have hscript := kept_script settings dashboard
  have hpanels := kept_panels settings dashboard
  have hdiagnostics := kept_diagnostics settings dashboard
  cases hkept : kept settings dashboard with
  | mk script diagnostics panels =>
      rw [hkept] at hscript hpanels hdiagnostics
      subst hscript hpanels hdiagnostics
      rfl

theorem body_append (style : Script.LiteralStyle) (first second : List (Option Panel)) :
    body style (first ++ second) = body style first ++ body style second := by
  rw [body, supported_append, List.map_append, String.join_append, body, body]

-- To convert a list of panels behind another one is to convert both: the bodies of the scripts, the
-- counts and the diagnostics are put together, and the first failure is one of the whole. The heads
-- of the scripts have no part in their bodies.
theorem convert_append (settings : Settings) (header : Dashboard)
    (first second : List (Option Panel)) :
    let run (panels : List (Option Panel)) :=
      (convert settings { header with panels := panels }).result
    let head := (preamble settings.preamble header).render
    (∀ a b, run first = .ok a → run second = .ok b → ∃ body, b.script = head ++ body ∧
      run (first ++ second) = .ok ⟨a.script ++ body,
        a.diagnostics ++ b.diagnostics.map (Diagnostic.shift first.length),
        a.panels + b.panels⟩) ∧
      (∀ e, run first = .error e → run (first ++ second) = .error e) ∧
      (∀ a e, run first = .ok a → run second = .error e →
        run (first ++ second) = .error ⟨e.index + first.length, e.type⟩) ∧
      ∀ a, run first = .ok a → ∃ body, a.script = head ++ body ∧
        ∀ (other : PreambleSettings) (header' : Dashboard),
          (convert { settings with preamble := other } { header' with panels := first }).result =
            .ok { a with script := (preamble other header').render ++ body } := by
  intro run head
  have hstop := stop?_append settings.unsupportedPolicy first second
  -- the head reads no panel
  have hkept : ∀ panels, kept settings { header with panels := panels } =
      ⟨head ++ body settings.literalStyle panels, diagnosticsFrom 0 panels,
        (supported panels).length⟩ := fun panels => kept_eq settings { header with panels := panels }
  refine ⟨?_, ?_, ?_, ?_⟩
  · intro a b ha hb
    obtain ⟨hfirst, rfl⟩ := (result_eq_ok_iff _ _ _).mp ha
    obtain ⟨hsecond, rfl⟩ := (result_eq_ok_iff _ _ _).mp hb
    refine ⟨body settings.literalStyle second, kept_script _ _, (result_eq_ok_iff _ _ _).mpr ⟨?_, ?_⟩⟩
    · rw [hstop, hfirst, hsecond]
      rfl
    · have hshift := diagnosticsFrom_add 0 first.length second
      rw [hkept, hkept, hkept, body_append, supported_append, diagnosticsFrom_append, hshift,
        List.length_append, String.append_assoc]
  · intro e he
    have hfirst := (result_eq_error_iff _ _ _).mp he
    refine (result_eq_error_iff _ _ _).mpr ?_
    rw [hstop, hfirst]
    rfl
  · intro a e ha he
    obtain ⟨hfirst, -⟩ := (result_eq_ok_iff _ _ _).mp ha
    have hsecond := (result_eq_error_iff _ _ _).mp he
    refine (result_eq_error_iff _ _ _).mpr ?_
    rw [hstop, hfirst, hsecond]
    rfl
  · intro a ha
    obtain ⟨hfirst, rfl⟩ := (result_eq_ok_iff _ _ _).mp ha
    refine ⟨body settings.literalStyle first, kept_script _ _, fun other header' => ?_⟩
    refine (result_eq_ok_iff _ _ _).mpr ⟨hfirst, ?_⟩
    rw [hkept]
    exact (kept_eq { settings with preamble := other } { header' with panels := first }).symm

-- A null and a row in front of a null and a table, which fails at its place in the whole, and in
-- front of a gauge and a null.
theorem convert_append_at_row :
    let settings : Settings := {}
    let row : Panel := { type := "row", gridPos := ⟨1, 24, 0, 0⟩ }
    let table : Panel := { type := "table", gridPos := ⟨8, 24, 0, 1⟩ }
    let gauge : Panel := { type := "gauge", gridPos := ⟨8, 12, 0, 9⟩ }
    let run (panels : List (Option Panel)) := (convert settings { panels := panels }).result
    run [none, some row, none, some table] = .error ⟨3, "table"⟩ ∧
      ∃ script, run [none, some row, some gauge, none] =
        .ok ⟨script, [.nullPanel 0, .nullPanel 3], 2⟩ := by
  intro settings row table gauge run
  let first : Dashboard := { panels := [none, some row] }
  let second : Dashboard := { panels := [some gauge, none] }
  have hfirst : run [none, some row] = .ok (kept settings first) :=
    congrArg Traced.result (convert_abort_of_none settings first (by decide))
  have hsecond : run [some gauge, none] = .ok (kept settings second) :=
    congrArg Traced.result (convert_abort_of_none settings second (by decide))
  have hfails : run [none, some table] = .error ⟨1, "table"⟩ :=
    congrArg Traced.result (convert_abort_of_some settings
      { panels := [none, some table] } ⟨1, "table"⟩ (by decide))
  obtain ⟨-, -, herror, -⟩ := convert_append settings {} [none, some row] [none, some table]
  obtain ⟨hok, -, -, -⟩ := convert_append settings {} [none, some row] [some gauge, none]
  obtain ⟨body, -, happend⟩ := hok _ _ hfirst hsecond
  refine ⟨herror _ _ hfirst hfails, (kept settings first).script ++ body, ?_⟩
  have hpanels : (kept settings first).panels = 1 ∧ (kept settings second).panels = 1 := by decide
  have hdiagnostics : (kept settings first).diagnostics = [.nullPanel 0] ∧
      (kept settings second).diagnostics = [.nullPanel 1] := by decide
  rw [hpanels.1, hpanels.2, hdiagnostics.1, hdiagnostics.2] at happend
  exact happend

end Conversion

end DashboardScript
