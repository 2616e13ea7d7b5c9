import DashboardScript.Proofs.Conversion.Accounting
import DashboardScript.Proofs.Conversion.Determined
import DashboardScript.Proofs.Script.Calls

namespace DashboardScript.Conversion

open Script
open Text (Counts counts_join occurrences)

-- The queries of an entry that are in the script. There are none where it has no panel of a type
-- with a constructor.
def queryCount : Option Panel → Nat
  | none => 0
  | some panel => if panel.type ∈ discriminants then (panel.targets.map List.length).getD 0 else 0

theorem queryCount_eq (entry : Option Panel) :
    queryCount entry =
      (((EntryClass.of entry).supported?.toList).map fun taken => taken.1.targetList.length).sum := by
  cases entry with
  | none => rfl
  | some panel =>
      have hnone := ofName?_eq_none_iff_not_mem panel.type
      cases hkind : PanelKind.ofName? panel.type with
      | none =>
          have hnot : panel.type ∉ discriminants := hnone.mp hkind
          simp [queryCount, EntryClass.of, EntryClass.supported?, hkind, hnot]
      | some kind =>
          have hmem : panel.type ∈ discriminants := by
            by_contra hnot
            simp [hnone.mpr hnot] at hkind
          cases htargets : panel.targets <;>
            simp [queryCount, EntryClass.of, EntryClass.supported?, hkind, hmem, htargets,
              Panel.targetList]

theorem sum_queryCount (panels : List (Option Panel)) :
    (panels.map queryCount).sum =
      ((supported panels).map fun taken => taken.1.targetList.length).sum := by
  induction panels with
  | nil => rfl
  | cons entry panels ih =>
      rw [List.map_cons, List.sum_cons, supported_cons, List.map_append, List.sum_append, ih,
        queryCount_eq]

-- The calls of a script are those of its blocks.
theorem counts_script (call : ChainedCall) {settings : Settings} {dashboard : Dashboard}
    (h : ∀ text ∈ scriptTexts settings.preamble dashboard, CallFree call text) :
    Counts call.mark.toList (kept settings dashboard).script
      ((supported dashboard.panels).map fun taken => call.perPanel taken.1).sum := by
  have hhead : Counts call.mark.toList (preamble settings.preamble dashboard).render 0 := by
    rw [preamble_eq]
    exact Preamble.counts_render call fun text htext => h text (List.mem_append_left _ htext)
  have hblocks : Counts call.mark.toList
      (String.join ((supported dashboard.panels).map fun taken =>
        block settings.literalStyle taken.1 taken.2))
      ((supported dashboard.panels).map fun taken => call.perPanel taken.1).sum := by
    refine counts_join fun taken htaken => ?_
    refine counts_block call settings.literalStyle fun text htext => h text ?_
    exact List.mem_append_right _
      (List.mem_flatMap.mpr ⟨taken.1.view taken.2, List.mem_map_of_mem htaken, htext⟩)
  rw [kept_script]
  exact hhead.behind hblocks

-- Where no text that a script takes over has one of the calls in it, the script has a call for each
-- of its panels and for each of their queries, and no other one.
theorem calls_are_exact (settings : Settings) (dashboard : Dashboard) (conversion : Conversion)
    (h : (convert settings dashboard).result = .ok conversion)
    (hfree : ∀ text ∈ scriptTexts settings.preamble dashboard,
      ¬".addPanel(".toList <:+: text.toList ∧ ¬".addTarget(".toList <:+: text.toList) :
    occurrences ".addPanel(" conversion.script = conversion.panels ∧
      occurrences ".addTarget(" conversion.script = (dashboard.panels.map queryCount).sum := by
  rw [eq_kept_of_ok settings dashboard conversion h]
  have hpanels := (counts_script .addPanel fun text htext => (hfree text htext).1).eq_occurrences
    ChainedCall.addPanel.mark_ne_nil
  have htargets := (counts_script .addTarget fun text htext => (hfree text htext).2).eq_occurrences
    ChainedCall.addTarget.mark_ne_nil
  constructor
  · have hones : ((supported dashboard.panels).map fun taken =>
        ChainedCall.addPanel.perPanel taken.1).sum = (supported dashboard.panels).length := by
      simp [ChainedCall.perPanel]
    rw [kept_panels, ← hones]
    exact hpanels
  · rw [sum_queryCount]
    exact htargets

-- Texts may have nearly the call in them, and quotes that are not closed. The queries of a table do
-- not count.
theorem calls_are_exact_at_gauge :
    let settings : Settings :=
      { unsupportedPolicy := .skip, literalStyle := .bare, preamble := { title := "it's .addPanel" } }
    let query : Target := { expr := "('.addTarget\n(", intervalFactor := some (.integer 2) }
    let table : Panel := { type := "table", gridPos := ⟨8, 24, 0, 0⟩, targets := some [query] }
    let gauge : Panel :=
      { type := "gauge", gridPos := ⟨8, 12, 0, 8⟩, targets := some [query, query, query] }
    let row : Panel := { type := "row", gridPos := ⟨1, 24, 0, 16⟩, title := some "addPanel(" }
    let dashboard : Dashboard := { panels := [some table, some gauge, none, some row] }
    let script := (kept settings dashboard).script
    occurrences ".addPanel(" script = 2 ∧ occurrences ".addTarget(" script = 3 := by
  intro settings query table gauge row dashboard script
  have h : (convert settings dashboard).result = .ok (kept settings dashboard) :=
    congrArg Traced.result (convert_skip settings dashboard)
  exact calls_are_exact settings dashboard _ h (by decide +kernel)

end DashboardScript.Conversion
