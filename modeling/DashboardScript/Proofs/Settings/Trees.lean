import Mathlib.Data.List.TakeWhile
import Mathlib.Data.Option.Basic
import DashboardScript.Proofs.Settings.Keys
import DashboardScript.Settings.Load

-- From the entries of a file to its settings.
namespace DashboardScript.Settings

namespace Tree

-- A table of its own with these entries.
def IsTable (entries : List (String × Tree)) (tree : Tree) : Prop :=
  ∃ sourced, tree = .table sourced entries

section Overlay

variable {change : Tree → Tree} {key : String} {entries olds : List (String × Tree)}

theorem alterEntry_of_not_mem (h : key ∉ entries.map Prod.fst) :
    alterEntry key change entries = entries ++ [(key, change (.unit false))] := by
  induction entries with
  | nil => rfl
  | cons entry rest ih =>
      obtain ⟨k, t⟩ := entry
      rw [List.map_cons, List.mem_cons, not_or] at h
      rw [alterEntry, if_neg (Ne.symm h.1), ih h.2, List.cons_append]

-- What a value makes where nothing was before.
def laid (tree : Tree) : Tree := overlay tree (.unit false)

-- Entries with keys of their own stand side by side.
theorem overlayEntries_eq (sourced : Bool) (h : ((olds ++ entries).map Prod.fst).Nodup) :
    overlayEntries entries (.table sourced olds) =
      .table sourced (olds ++ entries.map fun entry => (entry.1, laid entry.2)) := by
  induction entries generalizing olds with
  | nil => simp [overlayEntries]
  | cons entry rest ih =>
      obtain ⟨k, t⟩ := entry
      have hkey : k ∉ olds.map Prod.fst := by
        rw [List.map_append, List.nodup_append] at h
        exact fun hmem => h.2.2 k hmem k (by simp) rfl
      have hrest : (((olds ++ [(k, laid t)]) ++ rest).map Prod.fst).Nodup := by
        simpa [List.map_append] using h
      rw [overlayEntries, alterKey, alterEntry_of_not_mem hkey]
      refine (ih hrest).trans ?_
      rw [List.append_assoc]
      rfl

theorem laid_text (s : String) : laid (.text s) = .text s := by
  simp [laid, overlay]

theorem laid_table (sourced : Bool) (h : (entries.map Prod.fst).Nodup) :
    laid (.table sourced entries) =
      .table false (entries.map fun entry => (entry.1, laid entry.2)) := by
  simp only [laid, overlay]
  exact overlayEntries_eq false h

end Overlay

theorem rootSteps_of_isBare {name : String} (h : IsBare name) : rootSteps name = [.key name] := by
  have htake : name.toList.takeWhile isKeyCharacter = name.toList :=
    List.takeWhile_eq_self_iff.mpr h.2
  have hne : name.toList ≠ [] := fun heq => h.1 (String.toList_eq_nil_iff.mp heq)
  simp [rootSteps, htake, steps?, hne]

-- Keys without dots and brackets are entries of the tree as they are of the file.
theorem foldl_alter_eq {entries : List (String × Tree)} (h : ∀ entry ∈ entries, IsBare entry.1)
    (tree : Tree) :
    entries.foldl (fun tree (key, value) => tree.alter (rootSteps key) (overlay value)) tree =
      overlayEntries entries tree := by
  induction entries generalizing tree with
  | nil => simp [overlayEntries]
  | cons entry rest ih =>
      obtain ⟨k, t⟩ := entry
      obtain ⟨hentry, hrest⟩ := List.forall_mem_cons.mp h
      change List.foldl _ (alter (rootSteps k) (overlay t) tree) rest = _
      rw [ih hrest, rootSteps_of_isBare hentry, overlayEntries]
      rfl

theorem ofEntries_eq {entries : List (String × Tree)} (hnodup : (entries.map Prod.fst).Nodup)
    (hbare : ∀ entry ∈ entries, IsBare entry.1) :
    ofEntries entries = .table false (entries.map fun entry => (entry.1, laid entry.2)) :=
  (foldl_alter_eq hbare (.table false [])).trans (overlayEntries_eq false hnodup)

-- The tree of a file holds what the file does.
theorem exists_ofEntries {entries : List (String × Tree)} {given : List (List String × String)}
    (h : Nested .text IsTable entries given) (hbare : ∀ entry ∈ entries, IsBare entry.1) :
    ∃ held, ofEntries entries = .table false held ∧ Nested .text IsTable held given := by
  have hgroup : ∀ inner value, Inside .text inner given → IsTable inner value →
      IsTable (inner.map fun entry => (entry.1, laid entry.2)) (laid value) := by
    rintro inner _ hinner ⟨sourced, rfl⟩
    exact ⟨false, laid_table sourced hinner.sorted.nodup⟩
  have htext : laid ∘ Tree.text = Tree.text := funext laid_text
  exact ⟨_, ofEntries_eq h.sorted.nodup hbare, htext ▸ h.map laid hgroup⟩

end Tree

section Choice

variable {α : Type}

theorem readOr_text (default name : String) (text : Option String) :
    readOr default (readText name) (text.map .text) = .ok (text.getD default) := by
  cases text <;> rfl

-- A choice is made by the text that is given for it, or by default. It is refused for a text that is
-- no name of it, and for nothing else.
inductive Judged (key : Key) (shown : α → String) (text : Option String) : Except Fault α → Prop where
  | made (a : α) (hshown : shown a = text.getD key.default)
    (haccepts : ∀ s, text = some s → key.Accepts s) : Judged key shown text (.ok a)
  | refused (s : String) (fault : Fault) (hgiven : text = some s) (hrefused : ¬key.Accepts s)
    (hmessage : ∀ file, fault.message file = key.complaint s) : Judged key shown text (.error fault)

theorem judged_choice (choice : Choice α) (key : Key) (name : String) (shown : α → String)
    (hname : name = ".".intercalate key.path)
    (hchoice : key.choice? = some (choice.name, [choice.first.1, choice.second.1]))
    (hdefault : key.default = choice.first.1) (hfirst : shown choice.first.2 = choice.first.1)
    (hsecond : shown choice.second.2 = choice.second.1) (text : Option String) :
    Judged key shown text
      (readOr choice.first.2 (readChoice choice name) (text.map .text)) := by
  have haccepts : ∀ s, key.Accepts s ↔ s = choice.first.1 ∨ s = choice.second.1 := by
    simp [Key.Accepts, hchoice]
  have hname? : ∀ s, readOr choice.first.2 (readChoice choice name) (some (.text s)) =
      if s = choice.first.1 then .ok choice.first.2
      else if s = choice.second.1 then .ok choice.second.2
      else .error (.unknownChoice choice.name s name) := fun s => by
    by_cases hs : s = choice.first.1
    · simp [readOr, readChoice, Choice.ofName?, hs]
    · by_cases hs' : s = choice.second.1
      · simp [readOr, readChoice, Choice.ofName?, hs, ← hs']
      · simp [readOr, readChoice, Choice.ofName?, hs, hs']
  cases text with
  | none => exact .made choice.first.2 (hfirst.trans hdefault.symm) fun s hs => by cases hs
  | some s =>
      rw [Option.map_some, hname?]
      split_ifs with hs hs'
      · refine .made choice.first.2 (hfirst.trans hs.symm) ?_
        rintro _ ⟨⟩
        exact (haccepts s).mpr (.inl hs)
      · refine .made choice.second.2 (hsecond.trans hs'.symm) ?_
        rintro _ ⟨⟩
        exact (haccepts s).mpr (.inr hs')
      · refine .refused s _ rfl (fun h => ((haccepts s).mp h).elim hs hs') fun file => ?_
        have hcalled : (key.choice?.map Prod.fst).getD "" = choice.name := by rw [hchoice]; rfl
        unfold Fault.message Key.complaint
        rw [hcalled, hname]

end Choice

section Texts

variable (value : Key → Option String)

-- The settings by the texts that they are given by. Only choices can fail.
def fromTexts : Except Fault Settings := do
  let literalStyle ← readOr .quoted (readChoice Choice.literalStyle "literal_style")
    ((value .literalStyle).map .text)
  let unsupportedPolicy ← readOr .abort
    (readChoice Choice.unsupportedPolicy "unsupported_panel_policy")
    ((value .unsupportedPolicy).map .text)
  let titleSource ← readOr .fixed (readChoice Choice.titleSource "preamble.title_source")
    ((value .titleSource).map .text)
  return {
    inputPath := (value .inputPath).getD Key.inputPath.default
    literalStyle
    unsupportedPolicy
    preamble := {
      title := (value .title).getD Key.title.default
      uid := (value .uid).getD Key.uid.default
      titleSource } }

-- Either every setting is what its text says, or some choice is given by a text that is no name of it
-- and is blamed for that.
theorem fromTexts_cases :
    (∃ settings, fromTexts value = .ok settings ∧
        (∀ key, key.shown settings = (value key).getD key.default) ∧
        ∀ key s, value key = some s → key.Accepts s) ∨
      ∃ key s fault, value key = some s ∧ ¬key.Accepts s ∧ fromTexts value = .error fault ∧
        ∀ file, fault.message file = key.complaint s := by
  have hstyle : Judged .literalStyle Key.styleName (value .literalStyle)
      (readOr .quoted (readChoice Choice.literalStyle "literal_style")
        ((value .literalStyle).map .text)) :=
    judged_choice Choice.literalStyle .literalStyle _ _ (by decide) rfl rfl rfl rfl _
  have hpolicy : Judged .unsupportedPolicy Key.policyName (value .unsupportedPolicy)
      (readOr .abort (readChoice Choice.unsupportedPolicy "unsupported_panel_policy")
        ((value .unsupportedPolicy).map .text)) :=
    judged_choice Choice.unsupportedPolicy .unsupportedPolicy _ _ (by decide) rfl rfl rfl rfl _
  have hsource : Judged .titleSource Key.sourceName (value .titleSource)
      (readOr .fixed (readChoice Choice.titleSource "preamble.title_source")
        ((value .titleSource).map .text)) :=
    judged_choice Choice.titleSource .titleSource _ _ (by decide) rfl rfl rfl rfl _
  unfold fromTexts
  generalize readOr _ _ ((value .literalStyle).map .text) = style at hstyle ⊢
  generalize readOr _ _ ((value .unsupportedPolicy).map .text) = policy at hpolicy ⊢
  generalize readOr _ _ ((value .titleSource).map .text) = source at hsource ⊢
  cases hstyle with
  | refused s fault hs hnot hmessage =>
      exact .inr ⟨.literalStyle, s, fault, hs, hnot, rfl, hmessage⟩
  | made style hstyleShown hstyleName =>
      cases hpolicy with
      | refused s fault hs hnot hmessage =>
          exact .inr ⟨.unsupportedPolicy, s, fault, hs, hnot, rfl, hmessage⟩
      | made policy hpolicyShown hpolicyName =>
          cases hsource with
          | refused s fault hs hnot hmessage =>
              exact .inr ⟨.titleSource, s, fault, hs, hnot, rfl, hmessage⟩
          | made source hsourceShown hsourceName =>
              refine .inl ⟨_, rfl, fun key => ?_, fun key => ?_⟩
              · cases key with
                | inputPath | title | uid => rfl
                | literalStyle => exact hstyleShown
                | unsupportedPolicy => exact hpolicyShown
                | titleSource => exact hsourceShown
              · cases key with
                | inputPath | title | uid => rintro _ - _ ⟨⟩
                | literalStyle => exact hstyleName
                | unsupportedPolicy => exact hpolicyName
                | titleSource => exact hsourceName

variable {value} {held : List (String × Tree)} {given : List (List String × String)}

-- The group that is missing is a group that gives nothing.
theorem readPreamble_eq (h : Nested .text Tree.IsTable held given)
    (hvalue : ∀ key : Key, given.lookup key.path = value key) :
    readOr {} readPreamble (held.lookup group) = do
      let titleSource ← readOr .fixed (readChoice Choice.titleSource "preamble.title_source")
        ((value .titleSource).map .text)
      return {
        title := (value .title).getD Key.title.default
        uid := (value .uid).getD Key.uid.default
        titleSource } := by
  cases hgroup : held.lookup group with
  | none =>
      have hnone : ∀ name, given.lookup [group, name] = none := h.ungrouped hgroup
      have htitle : value .title = none := (hvalue .title).symm.trans (hnone "title")
      have huid : value .uid = none := (hvalue .uid).symm.trans (hnone "uid")
      have hsource : value .titleSource = none :=
        (hvalue .titleSource).symm.trans (hnone "title_source")
      rw [htitle, huid, hsource]
      rfl
  | some tree =>
      obtain ⟨inner, ⟨sourced, rfl⟩, -, hinner⟩ := h.grouped tree hgroup
      have htitle : inner.lookup "title" = (value .title).map .text :=
        (hinner "title").trans (congrArg _ (hvalue .title))
      have huid : inner.lookup "uid" = (value .uid).map .text :=
        (hinner "uid").trans (congrArg _ (hvalue .uid))
      have hsource : inner.lookup "title_source" = (value .titleSource).map .text :=
        (hinner "title_source").trans (congrArg _ (hvalue .titleSource))
      simp only [readOr, readPreamble, readPreambleParts, htitle, huid, hsource]
      exact (bind_of_ok (readOr_text _ _ _) _).trans (bind_of_ok (readOr_text _ _ _) _)

-- The tree of a file is read by the texts that the file gives.
theorem ofTree_eq (h : Nested .text Tree.IsTable held given)
    (hvalue : ∀ key : Key, given.lookup key.path = value key) (sourced : Bool) :
    ofTree (.table sourced held) = fromTexts value := by
  have hsingle : ∀ key : Key, ∀ name, key.path = [name] → name ≠ group →
      Tree.entry? name (.table sourced held) = (value key).map .text := by
    intro key name hpath hname
    rw [ Tree.entry?, h.single name hname, ← hpath, hvalue]
  have hpreamble : Tree.entry? "preamble" (.table sourced held) = held.lookup group := rfl
  unfold ofTree fromTexts
  simp only [hpreamble, readPreamble_eq h hvalue]
  rw [hsingle .inputPath "input_path" rfl (by decide),
    hsingle .literalStyle "literal_style" rfl (by decide),
    hsingle .unsupportedPolicy "unsupported_panel_policy" rfl (by decide), readOr_text]
  refine (bind_of_ok rfl _).trans (bind_congr fun style => bind_congr fun policy => ?_)
  rw [bind_assoc]
  rfl

end Texts

end DashboardScript.Settings
