import DashboardScript.Proofs.Conversion.Entries

namespace DashboardScript.Script

-- The lines that a panel adds to a script: its place, the call that makes it, where its data comes
-- from, and a call for each of its queries.
def panelLines (style : LiteralStyle) (panel : Panel) (kind : PanelKind) : List String :=
  [".addPanel(\n",
      "  gridPos=" ++ panel.gridPos.literal ++ ",\n",
      "  panel=" ++ panel.call style kind ++ ",\n",
      "  datasource=prometheus\n"] ++
    (panel.targets.getD []).map (Target.fragment style) ++
    [")\n"]

theorem block_eq_join_panelLines (style : LiteralStyle) (panel : Panel) (kind : PanelKind) :
    block style panel kind = String.join (panelLines style panel kind) := by
  unfold block panelLines Panel.targetList
  -- the fixed pieces are kept apart until the brackets agree
  simp only [String.join_append, String.join_cons, String.join_nil, String.append_assoc,
    String.append_empty, -String.reduceAppend]

section Growth

variable (script : Script) (preamble : Preamble) (style : LiteralStyle)
  (calls : List (Panel × PanelKind))

@[simp] theorem addPanels_style : (script.addPanels calls).style = script.style := by
  induction calls generalizing script with
  | nil => rfl
  | cons call rest ih => exact ih (script.addPanel call.1 call.2)

theorem addPanels_append (more : List (Panel × PanelKind)) :
    script.addPanels (calls ++ more) = (script.addPanels calls).addPanels more :=
  List.foldl_append

-- What one call adds is decided by its panel and kind and by the style, whatever was there before.
theorem addPanel_text (panel : Panel) (kind : PanelKind) :
    (script.addPanel panel kind).text =
      script.text ++ String.join (panelLines script.style panel kind) := by
  rw [← block_eq_join_panelLines]
  rfl

-- No call takes back anything of the script.
theorem addPanels_prefix (more : List (Panel × PanelKind)) :
    (script.addPanels calls).text.toList <+: (script.addPanels (calls ++ more)).text.toList := by
  rw [addPanels_append, addPanels_text (script.addPanels calls), String.toList_append]
  exact List.prefix_append _ _

-- A script is its head and the lines of each of its panels in the order of the calls. It counts the
-- calls, and what they have written stays.
theorem addPanels_grows :
    ((start preamble style).addPanels calls).panels = calls.length ∧
      ((start preamble style).addPanels calls).text = preamble.render ++
        String.join (calls.map fun call => String.join (panelLines style call.1 call.2)) ∧
      (∀ count, ((start preamble style).addPanels (calls.take count)).text.toList <+:
        ((start preamble style).addPanels calls).text.toList) ∧
      ∀ (panel : Panel) (kind : PanelKind),
        (((start preamble style).addPanels calls).addPanel panel kind).panels = calls.length + 1 ∧
          (((start preamble style).addPanels calls).addPanel panel kind).text =
            ((start preamble style).addPanels calls).text ++
              String.join (panelLines style panel kind) := by
  have hpanels : ((start preamble style).addPanels calls).panels = calls.length :=
    (addPanels_panels (start preamble style) calls).trans (Nat.zero_add _)
  have hstyle : ((start preamble style).addPanels calls).style = style :=
    addPanels_style (start preamble style) calls
  refine ⟨hpanels, ?_, fun count => ?_, fun panel kind => ⟨?_, ?_⟩⟩
  · simp only [addPanels_text, block_eq_join_panelLines]
    rfl
  · have hprefix := addPanels_prefix (start preamble style) (calls.take count) (calls.drop count)
    rwa [List.take_append_drop] at hprefix
  · rw [← hpanels]
    rfl
  · rw [addPanel_text, hstyle]

end Growth

end DashboardScript.Script
