import DashboardScript.Proofs.Conversion.Determined
import DashboardScript.Proofs.Script.Brackets

namespace DashboardScript.Conversion

open Script

theorem leads_preamble {settings : PreambleSettings} {dashboard : Dashboard}
    (h : ∀ text ∈ scriptTexts settings dashboard, Unescaped text) :
    Leads (preamble settings dashboard).render [] [] := by
  rw [preamble_eq]
  exact Preamble.leads_render fun text htext => h text (List.mem_append_left _ htext)

theorem leads_blocks {settings : PreambleSettings} (style : LiteralStyle) {dashboard : Dashboard}
    (h : ∀ text ∈ scriptTexts settings dashboard, Unescaped text) :
    ∀ text ∈ (supported dashboard.panels).map fun entry => block style entry.1 entry.2,
      Leads text [] [] := by
  intro text htext
  obtain ⟨entry, hentry, rfl⟩ := List.mem_map.mp htext
  refine leads_block style fun text htext => h text ?_
  exact List.mem_append_right _
    (List.mem_flatMap.mpr ⟨entry.1.view entry.2, List.mem_map_of_mem hentry, htext⟩)

-- Where no text that a script takes over needs an escape, all literals and brackets in the script
-- are closed, and so they are behind its head and behind each of its blocks.
theorem script_balanced (settings : Settings) (dashboard : Dashboard) (conversion : Conversion)
    (h : (convert settings dashboard).result = .ok conversion)
    (hfree : ∀ text ∈ scriptTexts settings.preamble dashboard, Unescaped text) :
    let head := (preamble settings.preamble dashboard).render
    let blocks := (supported dashboard.panels).map fun entry =>
      block settings.literalStyle entry.1 entry.2
    Balanced head ∧ Balanced conversion.script ∧ blocks.length = conversion.panels ∧
      conversion.script = head ++ String.join blocks ∧
      ∀ count ≤ conversion.panels, Balanced (head ++ String.join (blocks.take count)) := by
  intro head blocks
  have hhead : Leads head [] [] := leads_preamble hfree
  have htaken : ∀ count, Leads (head ++ String.join (blocks.take count)) [] [] := fun count =>
    hhead.append (leads_join fun text htext =>
      leads_blocks settings.literalStyle hfree text (List.mem_of_mem_take htext))
  have hscript : conversion.script = head ++ String.join blocks := by
    rw [eq_kept_of_ok settings dashboard conversion h]
    exact kept_script settings dashboard
  have hlength : blocks.length = conversion.panels := by
    rw [eq_kept_of_ok settings dashboard conversion h, kept_panels, List.length_map]
  refine ⟨hhead.balanced, ?_, hlength, hscript, fun count _ => (htaken count).balanced⟩
  have hwhole := (htaken blocks.length).balanced
  rwa [List.take_length, ← hscript] at hwhole

-- What stands in a literal is no bracket, and in the bare style neither is a number.
theorem script_balanced_at_gauge :
    let settings : Settings :=
      { unsupportedPolicy := .skip, literalStyle := .bare, preamble := { titleSource := .dashboard } }
    let query : Target :=
      { expr := "rate(up[5m]))", intervalFactor := some (.integer 2), hide := some true }
    let gauge : Panel :=
      { type := "gauge", gridPos := ⟨8, 12, 0, 0⟩, title := some "a)", targets := some [query, query] }
    let dashboard : Dashboard := { tags := ["[", "\x7d"], panels := [none, some gauge, some gauge] }
    Balanced (kept settings dashboard).script := by
  intro settings query gauge dashboard
  have h : (convert settings dashboard).result = .ok (kept settings dashboard) :=
    congrArg Traced.result (convert_skip settings dashboard)
  exact (script_balanced settings dashboard _ h (by decide)).2.1

end DashboardScript.Conversion
