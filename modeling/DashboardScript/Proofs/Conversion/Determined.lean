import DashboardScript.Proofs.Conversion.Entries
import DashboardScript.Proofs.Script.Recovered

namespace DashboardScript

open Script
open Text (flatMap_append_inj map_eq_map_of_view)

namespace Conversion

def effectiveTitle (settings : PreambleSettings) (dashboard : Dashboard) : String :=
  match settings.titleSource, dashboard.title with
  | .fixed, _ => settings.title
  | .dashboard, none => settings.title
  | .dashboard, some title => if title = "" then settings.title else title

def effectiveTags (settings : PreambleSettings) (dashboard : Dashboard) : List String :=
  match settings.titleSource with
  | .fixed => []
  | .dashboard => dashboard.tags

theorem preamble_eq (settings : PreambleSettings) (dashboard : Dashboard) :
    preamble settings dashboard =
      ⟨effectiveTitle settings dashboard, settings.uid, effectiveTags settings dashboard⟩ := by
  unfold preamble effectiveTitle effectiveTags
  cases settings.titleSource with
  | fixed => rfl
  | dashboard =>
      cases dashboard.title with
      | none => rfl
      | some title => by_cases h : title = "" <;> simp [Option.filter, h]

-- What a script tells of a dashboard beside its head.
def views (dashboard : Dashboard) : List PanelView :=
  (supported dashboard.panels).map fun entry => entry.1.view entry.2

-- The texts that a script takes over as they are.
def scriptTexts (settings : PreambleSettings) (dashboard : Dashboard) : List String :=
  effectiveTitle settings dashboard :: settings.uid :: effectiveTags settings dashboard ++
    (views dashboard).flatMap PanelView.texts

theorem quoteFree_of_mem_supported {settings : PreambleSettings} {dashboard : Dashboard}
    (h : ∀ text ∈ scriptTexts settings dashboard, QuoteFree text) :
    ∀ entry ∈ supported dashboard.panels,
      ∀ text ∈ (entry.1.view entry.2).texts, QuoteFree text := by
  intro entry hentry text htext
  have hview : entry.1.view entry.2 ∈ views dashboard :=
    List.mem_map_of_mem (f := fun entry : Panel × PanelKind => entry.1.view entry.2) hentry
  exact h text (List.mem_append_right _ (List.mem_flatMap.mpr ⟨_, hview, htext⟩))

-- The blocks end with the script, since each of them begins with a point.
theorem blocks_inj (style : LiteralStyle) {first second : List (Panel × PanelKind)}
    (hfirst : ∀ entry ∈ first, ∀ text ∈ (entry.1.view entry.2).texts, QuoteFree text)
    (hsecond : ∀ entry ∈ second, ∀ text ∈ (entry.1.view entry.2).texts, QuoteFree text)
    (h : (String.join (first.map fun entry => block style entry.1 entry.2)).toList =
      (String.join (second.map fun entry => block style entry.1 entry.2)).toList) :
    (first.map fun entry => entry.1.view entry.2) =
      second.map fun entry => entry.1.view entry.2 := by
  have hstart : ∀ (entry : Panel × PanelKind) (rest : List Char),
      (block style entry.1 entry.2).toList ++ rest ≠ [] := by
    intro entry rest
    unfold block
    simp
  simp only [String.toList_join, List.flatMap_map] at h
  rw [← List.append_nil (first.flatMap _), ← List.append_nil (second.flatMap _)] at h
  exact (flatMap_append_inj _ (fun entry => ∀ text ∈ (entry.1.view entry.2).texts, QuoteFree text)
    (· = []) (fun a b ha hb r s => block_append_inj style ha hb) (fun a _ r => hstart a r)
    hfirst hsecond rfl rfl h).1

-- Of two dashboards without a single quote in what is taken over from them, the scripts are the
-- same just where the heads and the views of the panels are.
theorem script_eq_iff (settings : Settings) (first second : Dashboard) (a b : Conversion)
    (ha : (convert settings first).result = .ok a) (hb : (convert settings second).result = .ok b)
    (hfirst : ∀ text ∈ scriptTexts settings.preamble first, QuoteFree text)
    (hsecond : ∀ text ∈ scriptTexts settings.preamble second, QuoteFree text) :
    a.script = b.script ↔
      effectiveTitle settings.preamble first = effectiveTitle settings.preamble second ∧
        effectiveTags settings.preamble first = effectiveTags settings.preamble second ∧
        views first = views second := by
  have hhead : ∀ dashboard, (∀ text ∈ scriptTexts settings.preamble dashboard, QuoteFree text) →
      ∀ text ∈ effectiveTitle settings.preamble dashboard :: settings.preamble.uid ::
        effectiveTags settings.preamble dashboard, QuoteFree text :=
    fun _ h text htext => h text (List.mem_append_left _ htext)
  rw [eq_kept_of_ok settings first a ha, eq_kept_of_ok settings second b hb, kept_script,
    kept_script, preamble_eq, preamble_eq]
  constructor
  · intro h
    have hlist := congrArg String.toList h
    rw [String.toList_append, String.toList_append] at hlist
    obtain ⟨hpreamble, hblocks⟩ :=
      Preamble.render_append_inj (hhead first hfirst) (hhead second hsecond) hlist
    simp only [Preamble.mk.injEq, true_and] at hpreamble
    exact ⟨hpreamble.1, hpreamble.2, blocks_inj settings.literalStyle
      (quoteFree_of_mem_supported hfirst) (quoteFree_of_mem_supported hsecond) hblocks⟩
  · rintro ⟨htitle, htags, hviews⟩
    rw [htitle, htags, map_eq_map_of_view (fun _ _ h => block_eq_of_view_eq settings.literalStyle h)
      hviews]

-- An empty title and a null are not told, but the order of two queries is.
theorem script_eq_iff_at_row :
    let up : Target := { expr := "up" }
    let down : Target := { expr := "down", hide := some false }
    let row : Panel := { type := "row", gridPos := ⟨1, 24, 0, 0⟩, targets := some [up, down] }
    let titled : Dashboard := { panels := [none, some { row with title := some "" }] }
    let bare : Dashboard := { panels := [some row] }
    let turned : Dashboard := { panels := [some { row with targets := some [down, up] }] }
    (kept {} titled).script = (kept {} bare).script ∧
      (kept {} turned).script ≠ (kept {} bare).script := by
  intro up down row titled bare turned
  have htitled : (convert {} titled).result = .ok (kept {} titled) := rfl
  have hbare : (convert {} bare).result = .ok (kept {} bare) := rfl
  have hturned : (convert {} turned).result = .ok (kept {} turned) := rfl
  have hfree : ∀ dashboard ∈ [titled, bare, turned],
      ∀ text ∈ scriptTexts ({} : Settings).preamble dashboard, QuoteFree text := by
    unfold QuoteFree
    decide
  have hviews : views titled = views bare ∧ views turned ≠ views bare := by decide
  constructor
  · exact (script_eq_iff {} titled bare _ _ htitled hbare (hfree _ (by simp))
      (hfree _ (by simp))).mpr ⟨rfl, rfl, hviews.1⟩
  · intro h
    exact hviews.2 ((script_eq_iff {} turned bare _ _ hturned hbare (hfree _ (by simp))
      (hfree _ (by simp))).mp h).2.2

end Conversion

end DashboardScript
