import DashboardScript.Proofs.Settings.Bytes
import DashboardScript.Proofs.Settings.Drafts
import DashboardScript.Proofs.Settings.Trees

-- What settings are read from a TOML document.
namespace DashboardScript.Settings

open Toml Toml.Grammar

section Finish

variable {origin : Origin} {entries : Entries} {given : List (List String × String)}

theorem finishedEntries_eq_map (entries : Entries) :
    finishedEntries entries = entries.map fun entry => (entry.1, entry.2.finished) := by
  induction entries with
  | nil => rfl
  | cons entry rest ih => rw [finishedEntries, ih, List.map_cons]

theorem Holds.finish (h : Holds origin entries given) :
    Nested .string (fun inner value => value = .table inner) (finishedEntries entries) given := by
  rw [finishedEntries_eq_map]
  refine h.map Node.finished fun inner node _ hnode => ?_
  rw [hnode, Node.finished, finishedEntries_eq_map]

end Finish

section Trees

variable {given : List (List String × String)} {entries : List (String × Value)}

-- The tree of a value that has one.
def treeOf (value : Value) : Tree :=
  match Tree.ofToml value with
  | .ok tree => tree
  | .error _ => .unit false

theorem treeOf_eq {value : Value} {tree : Tree} (h : Tree.ofToml value = .ok tree) :
    treeOf value = tree := by
  rw [treeOf, h]

theorem ofTomlEntries_eq (h : ∀ entry ∈ entries, ∃ tree, Tree.ofToml entry.2 = .ok tree) :
    Tree.ofTomlEntries entries = .ok (entries.map fun entry => (entry.1, treeOf entry.2)) := by
  induction entries with
  | nil => rfl
  | cons entry rest ih =>
      obtain ⟨⟨tree, htree⟩, hrest⟩ := List.forall_mem_cons.mp h
      rw [Tree.ofTomlEntries, bind_of_ok htree, bind_of_ok (ih hrest), List.map_cons,
        treeOf_eq htree]
      rfl

theorem ofToml_group {inner : List (String × Value)} (h : Inside .string inner given) :
    Tree.ofToml (.table inner) =
      .ok (.table true (inner.map fun entry => (entry.1, treeOf entry.2))) := by
  have htexts : ∀ entry ∈ inner, ∃ tree, Tree.ofToml entry.2 = .ok tree := fun entry hentry => by
    obtain ⟨text, htext⟩ := h.exists_text hentry
    exact ⟨.text text, by rw [htext]; rfl⟩
  rw [Tree.ofToml, ofTomlEntries_eq htexts]
  rfl

theorem exists_ofTomlEntries
    (h : Nested .string (fun inner value => value = .table inner) entries given) :
    ∃ trees, Tree.ofTomlEntries entries = .ok trees ∧ Nested .text Tree.IsTable trees given := by
  have hvalues : ∀ entry ∈ entries, ∃ tree, Tree.ofToml entry.2 = .ok tree := by
    rintro ⟨key, value⟩ hentry
    obtain ⟨text, -, rfl⟩ | ⟨-, inner, rfl, hinner⟩ := h.cases_of_mem hentry
    · exact ⟨.text text, rfl⟩
    · exact ⟨_, ofToml_group hinner⟩
  refine ⟨_, ofTomlEntries_eq hvalues, h.map treeOf ?_⟩
  rintro inner _ hinner rfl
  exact ⟨true, treeOf_eq (ofToml_group hinner)⟩

end Trees

section Narrow

theorem narrow_space {c : Char} (h : Scanner.isSpace c) : c.toNat < 128 := by
  simp only [Scanner.isSpace, Bool.or_eq_true, beq_iff_eq] at h
  rcases h with rfl | rfl <;> decide

theorem bareKey_bounds {c : Char} (h : Scanner.isBareKey c) : 32 < c.toNat ∧ c.toNat < 128 := by
  simp only [Scanner.isBareKey, Bool.or_eq_true, beq_iff_eq] at h
  obtain (h | rfl) | rfl := h
  · unfold Char.isAlphanum Char.isAlpha Char.isUpper Char.isLower Char.isDigit at h
    simp only [Bool.or_eq_true, Bool.and_eq_true, decide_eq_true_eq, ge_iff_le,
      UInt32.le_iff_toNat_le] at h
    change 32 < c.val.toNat ∧ c.val.toNat < 128
    change ((65 ≤ c.val.toNat ∧ c.val.toNat ≤ 90) ∨ (97 ≤ c.val.toNat ∧ c.val.toNat ≤ 122)) ∨
      (48 ≤ c.val.toNat ∧ c.val.toNat ≤ 57) at h
    omega
  · decide
  · decide

theorem narrow_ending (ending : Ending) {rest : List Char} (h : Narrow rest) :
    Narrow (ending.text ++ rest) := by
  rw [Ending.text, List.append_assoc]
  refine narrow_append (fun c hc => narrow_space (ending.pad.property c hc)) ?_
  obtain ⟨pad, remark⟩ := ending
  cases remark with
  | none => exact h
  | some cs => exact narrow_cons (by decide) _

theorem narrow_line (line : LineText) {rest : List Char} (h : Narrow rest) :
    Narrow (line.text ++ rest) := by
  cases line with
  | blank ending => exact narrow_ending ending h
  | header lead pad key gap ending =>
      rw [LineText.text, List.append_assoc]
      exact narrow_append (fun c hc => narrow_space (lead.property c hc)) (narrow_cons (by decide) _)
  | entry lead key gap pad value ending =>
      rw [LineText.text, List.append_assoc]
      refine narrow_append (fun c hc => narrow_space (lead.property c hc)) ?_
      obtain ⟨c, tail, htext, hc⟩ := Scanner.key_begins key _
      rw [List.append_assoc, htext]
      exact narrow_cons (bareKey_bounds hc).2 tail

theorem narrow_document (document : Document) : Narrow document.text := by
  obtain ⟨lines, last⟩ := document
  have hlast := narrow_line last narrow_nil
  rw [List.append_nil] at hlast
  cases lines with
  | nil => exact hlast
  | cons line lines =>
      obtain ⟨first, br⟩ := line
      have hbreak : ∀ rest, Narrow (br.text ++ rest) := fun rest => by
        cases br <;> exact narrow_cons (by decide) _
      simp only [Document.text, Document.linesText, List.flatMap_cons, List.append_assoc]
      exact narrow_line first (hbreak _)

end Narrow

-- A document gives the settings what its entries say.
theorem entries_document (document : Document) (harranged : Arranged document.statements)
    (hformed : WellFormed (Grammar.given [] document.statements)) :
    ∃ trees, Format.entries .toml (String.ofList document.text) = .ok trees ∧
      Nested .text Tree.IsTable trees (Grammar.given [] document.statements) := by
  obtain ⟨lines, hlayout, hmeant⟩ := layOut_document document (narrow_document document).ne_mark
  obtain ⟨origin, final, hfold, hfinal⟩ := exists_final hmeant harranged hformed
  obtain ⟨trees, htrees, hnested⟩ := exists_ofTomlEntries hfinal.finish
  have hparse : parse (String.ofList document.text) = .ok (finishedEntries final.entries) := by
    rw [parse, bind_of_ok hlayout, bind_of_ok hfold]
    rfl
  refine ⟨trees, ?_, hnested⟩
  rw [Format.entries, hparse]
  simp only [htrees]
  rfl

end DashboardScript.Settings
