import Mathlib.Algebra.GroupWithZero.Nat
import Mathlib.Data.List.Infix

-- How often a mark stands in a text that is put together from pieces.
namespace DashboardScript.Text

-- The places of a text at which a mark begins.
def marksIn (mark text : List Char) : Nat := text.tails.countP mark.isPrefixOf

def occurrences (mark text : String) : Nat := marksIn mark.toList text.toList

example : occurrences ".a(" "'.a(' + b.a(.a(" = 3 := by decide

section Marks

variable {mark : List Char} {c : Char}

theorem marksIn_cons (mark : List Char) (c : Char) (text : List Char) :
    marksIn mark (c :: text) =
      (if mark.isPrefixOf (c :: text) then 1 else 0) + marksIn mark text := by
  rw [marksIn, List.tails_cons, List.countP_cons, Nat.add_comm, marksIn]

theorem marksIn_nil (hmark : mark ≠ []) : marksIn mark [] = 0 := by
  cases mark with
  | nil => exact absurd rfl hmark
  | cons m mark => rfl

-- A mark that has such a character at most at its end does not go on behind it.
theorem prefix_append_cons_iff (h : c ∉ mark.dropLast) (text rest : List Char) :
    mark <+: text ++ c :: rest ↔ mark <+: text ++ [c] := by
  induction text generalizing mark with
  | nil =>
      cases mark with
      | nil => simp
      | cons m mark =>
          cases mark with
          | nil => simp [List.cons_prefix_cons]
          | cons n mark =>
              have hm : m ≠ c := fun heq => h (by simp [heq])
              simp [List.cons_prefix_cons, hm]
  | cons x text ih =>
      cases mark with
      | nil => simp
      | cons m mark =>
          have hrest : c ∉ mark.dropLast := by
            intro hc
            cases mark with
            | nil => simp at hc
            | cons n mark => exact h (List.mem_cons_of_mem m hc)
          rw [List.cons_append, List.cons_append, List.cons_prefix_cons, List.cons_prefix_cons,
            ih hrest]

-- So the marks on both sides of that place add up.
theorem marksIn_append_cons (hmark : mark ≠ []) (h : c ∉ mark.dropLast) (text rest : List Char) :
    marksIn mark (text ++ c :: rest) = marksIn mark (text ++ [c]) + marksIn mark rest := by
  induction text with
  | nil =>
      have hprefix := prefix_append_cons_iff h [] rest
      simp only [List.nil_append] at hprefix
      simp only [List.nil_append, marksIn_cons, List.isPrefixOf_iff_prefix, hprefix,
        marksIn_nil hmark]
      omega
  | cons x text ih =>
      have hprefix := prefix_append_cons_iff h (x :: text) rest
      simp only [List.cons_append] at hprefix
      simp only [List.cons_append, marksIn_cons, List.isPrefixOf_iff_prefix, hprefix, ih]
      omega

theorem marksIn_concat (hmark : mark ≠ []) (h : c ∉ mark) (text : List Char) :
    marksIn mark (text ++ [c]) = marksIn mark text := by
  have hprefix : ∀ text, mark <+: text ++ [c] ↔ mark <+: text := by
    intro text
    rw [List.prefix_concat_iff]
    refine or_iff_right fun heq => h ?_
    simp [heq]
  induction text with
  | nil =>
      have hend := hprefix []
      simp only [List.nil_append, List.prefix_nil, hmark, iff_false] at hend
      simp [marksIn_cons, List.isPrefixOf_iff_prefix, hend]
  | cons x text ih =>
      have hx := hprefix (x :: text)
      simp only [List.cons_append] at hx
      simp only [List.cons_append, marksIn_cons, List.isPrefixOf_iff_prefix, hx, ih]

theorem marksIn_eq_zero_iff (mark text : List Char) : marksIn mark text = 0 ↔ ¬mark <:+: text := by
  rw [marksIn, List.countP_eq_zero, List.infix_iff_prefix_suffix]
  simp only [List.mem_tails, List.isPrefixOf_iff_prefix]
  constructor
  · rintro h ⟨rest, hprefix, hsuffix⟩
    exact h rest hsuffix hprefix
  · rintro h rest hsuffix hprefix
    exact h ⟨rest, hprefix, hsuffix⟩

end Marks

-- So often the mark stands in the text, whatever comes behind it.
def Counts (mark : List Char) (text : String) (count : Nat) : Prop :=
  ∀ rest, marksIn mark (text.toList ++ rest) = count + marksIn mark rest

section Counts

variable {mark : List Char}

theorem Counts.append {first second : String} {m n : Nat} (hfirst : Counts mark first m)
    (hsecond : Counts mark second n) : Counts mark (first ++ second) (m + n) := by
  intro rest
  rw [String.toList_append, List.append_assoc, hfirst, hsecond]
  omega

-- A text without the mark adds nothing in front.
theorem Counts.behind {first second : String} {n : Nat} (hfirst : Counts mark first 0)
    (hsecond : Counts mark second n) : Counts mark (first ++ second) n := by
  have hboth := hfirst.append hsecond
  rwa [Nat.zero_add] at hboth

theorem counts_empty (mark : List Char) : Counts mark "" 0 := by
  intro rest
  rw [String.toList_empty, List.nil_append, Nat.zero_add]

theorem counts_join {α : Type} {items : List α} {write : α → String} {count : α → Nat}
    (h : ∀ item ∈ items, Counts mark (write item) (count item)) :
    Counts mark (String.join (items.map write)) (items.map count).sum := by
  induction items with
  | nil => exact counts_empty mark
  | cons item items ih =>
      rw [List.forall_mem_cons] at h
      rw [List.map_cons, List.map_cons, String.join_cons, List.sum_cons]
      exact h.1.append (ih h.2)

-- A text whose last character ends every mark at the latest.
theorem counts_of_ended (hmark : mark ≠ []) {text : String}
    (hend : ∀ c ∈ text.toList.getLast?, c ∉ mark.dropLast) :
    Counts mark text (marksIn mark text.toList) := by
  intro rest
  rcases List.eq_nil_or_concat text.toList with htext | ⟨init, c, htext⟩
  · rw [htext, List.nil_append, marksIn_nil hmark, Nat.zero_add]
  · have hc : c ∉ mark.dropLast := hend c (by simp [htext])
    rw [htext, List.concat_eq_append, List.append_assoc, List.singleton_append,
      marksIn_append_cons hmark hc]

theorem Counts.eq_occurrences (hmark : mark ≠ []) {text : String} {n : Nat}
    (h : Counts mark text n) : marksIn mark text.toList = n := by
  have hend := h []
  rwa [List.append_nil, marksIn_nil hmark, Nat.add_zero] at hend

end Counts

end DashboardScript.Text
