import DashboardScript.Proofs.Conversion.Entries
import DashboardScript.Proofs.Script.Pieces
import DashboardScript.Proofs.Script.Wordings

namespace DashboardScript

open Script

namespace Conversion

-- A script as pieces that no style of literals changes.
def pieces (settings : PreambleSettings) (dashboard : Dashboard) : List Piece :=
  .fixed (preamble settings dashboard).render ::
    (supported dashboard.panels).flatMap fun entry => blockPieces entry.1 entry.2

theorem writePieces_pieces (settings : Settings) (dashboard : Dashboard) :
    writePieces settings.literalStyle (pieces settings.preamble dashboard) =
      (kept settings dashboard).script := by
  rw [kept_script, pieces, writePieces_cons, Piece.write_fixed, writePieces_flatMap]
  simp only [writePieces_blockPieces]

-- The flags and the numbers of a script, as it has them one after the other.
def styledValues (dashboard : Dashboard) : List String :=
  (supported dashboard.panels).flatMap fun entry =>
    entry.1.styledValues entry.2 ++ entry.1.targetList.flatMap Target.styledValues

theorem values_pieces (settings : PreambleSettings) (dashboard : Dashboard) :
    values (pieces settings dashboard) = styledValues dashboard := by
  rw [pieces, values_fixed, values_flatMap]
  simp only [values_blockPieces, styledValues]

-- The queries of all panels that a script has.
def targets (dashboard : Dashboard) : List Target :=
  (supported dashboard.panels).flatMap fun entry => entry.1.targetList

-- A flag for each row, and what its queries have of an interval factor and the two flags.
def styledCount (dashboard : Dashboard) : Nat :=
  (supported dashboard.panels).countP (fun entry => entry.2 = .row) +
    ((targets dashboard).countP (fun target => target.intervalFactor.isSome) +
      (targets dashboard).countP (fun target => target.hide.isSome) +
      (targets dashboard).countP (fun target => target.instant.isSome))

theorem length_targetValues (targets : List Target) :
    (targets.flatMap Target.styledValues).length =
      targets.countP (fun target => target.intervalFactor.isSome) +
        targets.countP (fun target => target.hide.isSome) +
        targets.countP (fun target => target.instant.isSome) := by
  have hone : ∀ {α : Type} (value : Option α) (f : α → String),
      (value.map f).toList.length = if value.isSome then 1 else 0 := by
    intro α value f
    cases value <;> rfl
  induction targets with
  | nil => rfl
  | cons target targets ih =>
      simp only [List.flatMap_cons, List.length_append, Target.styledValues, hone, ih,
        List.countP_cons]
      omega

theorem length_entryValues (entries : List (Panel × PanelKind)) :
    (entries.flatMap fun entry =>
      entry.1.styledValues entry.2 ++ entry.1.targetList.flatMap Target.styledValues).length =
    entries.countP (fun entry => entry.2 = .row) +
      ((entries.flatMap fun entry => entry.1.targetList).flatMap Target.styledValues).length := by
  have hrow : ∀ (panel : Panel) (kind : PanelKind),
      (panel.styledValues kind).length = if kind = .row then 1 else 0 := by
    intro panel kind
    cases kind <;> rfl
  induction entries with
  | nil => rfl
  | cons entry entries ih =>
      simp only [List.flatMap_cons, List.length_append, List.flatMap_append, hrow, ih,
        List.countP_cons, decide_eq_true_eq]
      omega

theorem length_styledValues (dashboard : Dashboard) :
    (styledValues dashboard).length = styledCount dashboard := by
  rw [styledValues, length_entryValues, length_targetValues]
  rfl

-- The style has no part in what becomes of the entries.
theorem convert_literalStyle (settings : Settings) (dashboard : Dashboard) :
    (∃ events e, ∀ style, convert { settings with literalStyle := style } dashboard =
        ⟨events, .error e⟩) ∨
      ∃ events, ∀ style, convert { settings with literalStyle := style } dashboard =
        ⟨events, .ok (kept { settings with literalStyle := style } dashboard)⟩ := by
  obtain ⟨inputPath, _, policy, head⟩ := settings
  cases policy with
  | skip =>
      exact .inr ⟨_, fun style => convert_skip ⟨inputPath, style, .skip, head⟩ dashboard⟩
  | abort =>
      cases hfirst : firstUnsupported? 0 dashboard.panels with
      | none =>
          exact .inr ⟨_, fun style =>
            convert_abort_of_none ⟨inputPath, style, .abort, head⟩ dashboard hfirst⟩
      | some e =>
          exact .inl ⟨_, e, fun style =>
            convert_abort_of_some ⟨inputPath, style, .abort, head⟩ dashboard e hfirst⟩

theorem fieldPieces_wording {field : Field} {literal : Literal} {text : String}
    (hvalue : field.2 = some literal) (hwording : IsWording literal text) (hne : text ≠ "") :
    fieldPieces field = [.fixed (field.1 ++ "="), .fixed (quoted text), .fixed ","] := by
  rcases hwording with rfl | rfl <;>
    simp [fieldPieces, hvalue, Option.filter, Literal.isPresent, hne, Literal.piece,
      Literal.isStyled, Literal.plain]

section Infix

open List (infix_append_of_infix_left infix_append_of_infix_right infix_cons)

theorem infix_flatMap {α : Type} {items : List α} {item : α} (write : α → List Piece)
    (h : item ∈ items) : write item <:+: items.flatMap write :=
  List.infix_of_mem_flatten (List.mem_map_of_mem h)

theorem fieldPieces_infix_target {target : Target} {field : Field} (h : field ∈ target.fields) :
    fieldPieces field <:+: target.pieces := by
  have harguments := infix_flatMap fieldPieces h
  unfold Target.pieces
  by_cases hnil : target.fields.flatMap fieldPieces = []
  · rw [List.flatMap_eq_nil_iff.mp hnil field h]
    exact List.nil_infix
  · simp only [hnil, if_false]
    exact infix_append_of_infix_left (infix_cons
      (infix_append_of_infix_left (infix_cons harguments)))

theorem fieldPieces_infix_panel {panel : Panel} {kind : PanelKind} {field : Field}
    (h : field ∈ panel.fields kind) : fieldPieces field <:+: panel.pieces kind :=
  infix_append_of_infix_left (infix_cons (infix_flatMap fieldPieces h))

-- The arguments of a panel of a script and of its queries.
def fieldsOf (entry : Panel × PanelKind) : List Field :=
  entry.1.fields entry.2 ++ entry.1.targetList.flatMap Target.fields

theorem fieldPieces_infix_pieces {settings : PreambleSettings} {dashboard : Dashboard}
    {entry : Panel × PanelKind} (hentry : entry ∈ supported dashboard.panels) {field : Field}
    (hfield : field ∈ fieldsOf entry) : fieldPieces field <:+: pieces settings dashboard := by
  have hblock : fieldPieces field <:+: blockPieces entry.1 entry.2 := by
    unfold blockPieces
    rcases List.mem_append.mp hfield with hpanel | hquery
    · exact infix_append_of_infix_left (infix_append_of_infix_left
        (infix_cons (fieldPieces_infix_panel hpanel)))
    · obtain ⟨target, htarget, hfield⟩ := List.mem_flatMap.mp hquery
      have htargets := (fieldPieces_infix_target hfield).trans (infix_flatMap Target.pieces htarget)
      exact infix_append_of_infix_left (infix_append_of_infix_right (infix_cons htargets))
  exact infix_cons (hblock.trans
    (infix_flatMap (fun entry : Panel × PanelKind => blockPieces entry.1 entry.2) hentry))

end Infix

-- The style of literals has no part in a conversion but for the quotes of flags and numbers. Two
-- runs that differ in it have the same events, and fail alike or leave out the same entries. Their
-- scripts are the same pieces, which have the flags and the numbers apart from all the rest.
theorem literalStyle_decides_quotes (settings : Settings) (dashboard : Dashboard) :
    let run (style : LiteralStyle) := convert { settings with literalStyle := style } dashboard
    let script (style : LiteralStyle) := writePieces style (pieces settings.preamble dashboard)
    (run .quoted).events = (run .bare).events ∧
      ((∃ e, ∀ style, (run style).result = .error e) ∨
        ∃ diagnostics panels, ∀ style,
          (run style).result = .ok ⟨script style, diagnostics, panels⟩) ∧
      values (pieces settings.preamble dashboard) = styledValues dashboard ∧
      (∀ entry ∈ supported dashboard.panels, ∀ field ∈ fieldsOf entry, ∀ literal text,
        field.2 = some literal → IsWording literal text → text ≠ "" →
          [.fixed (field.1 ++ "="), .fixed (quoted text), .fixed ","] <:+:
            pieces settings.preamble dashboard) ∧
      (script .quoted).length = (script .bare).length + 2 * styledCount dashboard ∧
      (script .quoted = script .bare ↔ styledCount dashboard = 0) := by
  intro run script
  have hvalues := values_pieces settings.preamble dashboard
  refine ⟨?_, ?_, hvalues, ?_, ?_, ?_⟩
  · rcases convert_literalStyle settings dashboard with ⟨events, e, h⟩ | ⟨events, h⟩ <;>
      simp only [run, h]
  · rcases convert_literalStyle settings dashboard with ⟨events, e, h⟩ | ⟨events, h⟩
    · exact .inl ⟨e, fun style => congrArg Traced.result (h style)⟩
    · refine .inr ⟨diagnosticsFrom 0 dashboard.panels, (supported dashboard.panels).length,
        fun style => ?_⟩
      have hscript : script style = (kept { settings with literalStyle := style } dashboard).script :=
        writePieces_pieces { settings with literalStyle := style } dashboard
      simp only [run, h, hscript, ← kept_panels { settings with literalStyle := style } dashboard]
      rfl
  · intro entry hentry field hfield literal text hvalue hwording hne
    rw [← fieldPieces_wording hvalue hwording hne]
    exact fieldPieces_infix_pieces hentry hfield
  · rw [← length_styledValues, ← hvalues]
    exact length_writePieces _
  · rw [writePieces_eq_iff, hvalues, ← length_styledValues, List.length_eq_zero_iff]

-- A row with one query: its own flag and one of the query are told from a text that reads like one.
theorem literalStyle_decides_quotes_at_row :
    let query : Target := { expr := "up", format := some "true", hide := some true }
    let row : Panel := { type := "row", gridPos := ⟨1, 24, 0, 0⟩, targets := some [query] }
    let dashboard : Dashboard := { panels := [none, some row] }
    let pieces := pieces {} dashboard
    values pieces = ["false", "true"] ∧
      [.fixed "format=", .fixed "'true'", .fixed ","] <:+: pieces ∧
      (writePieces .quoted pieces).length = (writePieces .bare pieces).length + 4 := by
  intro query row dashboard pieces
  obtain ⟨_, _, hvalues, hwordings, hlength, _⟩ := literalStyle_decides_quotes {} dashboard
  have hrow : (row, .row) ∈ supported dashboard.panels := List.mem_cons_self
  have hformat : ("format", some (Literal.text "true")) ∈ fieldsOf (row, .row) := by decide
  exact ⟨hvalues, hwordings _ hrow _ hformat _ "true" rfl (.inl rfl) (by decide), hlength⟩

end Conversion

end DashboardScript
