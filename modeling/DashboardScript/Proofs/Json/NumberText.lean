import DashboardScript.Json.Number

namespace DashboardScript

-- The characters that the text of a number is made of.
def IsNumeric (c : Char) : Prop := c.isDigit ∨ c ∈ ['-', '+', '.', 'e']

theorem IsNumeric.ne {c : Char} (h : IsNumeric c) :
    c ≠ ',' ∧ c ≠ '\'' ∧ c ≠ ')' ∧ c ≠ ']' ∧ c ≠ '}' := by
  rcases h with h | h
  · refine ⟨?_, ?_, ?_, ?_, ?_⟩ <;>
    · rintro rfl
      exact absurd h (by decide)
  · simp only [List.mem_cons, List.not_mem_nil, or_false] at h
    rcases h with rfl | rfl | rfl | rfl <;> decide

theorem isNumeric_of_mem_toDigits {n : Nat} {c : Char} (h : c ∈ Nat.toDigits 10 n) :
    IsNumeric c :=
  .inl (Nat.isDigit_of_mem_toDigits (by decide) (by decide) h)

namespace Binary64

theorem isNumeric_of_mem_zeros {n : Nat} {c : Char} (h : c ∈ zeros n) : IsNumeric c := by
  rw [List.eq_of_mem_replicate h]
  exact .inl (by decide)

theorem isNumeric_of_mem_positionalText {fraction : Bool} {digits : List Char} {point : Int}
    (hdigits : ∀ c ∈ digits, IsNumeric c) :
    ∀ c ∈ positionalText fraction digits point, IsNumeric c := by
  have hzero : IsNumeric '0' := .inl (by decide)
  have hpoint : IsNumeric '.' := .inr (by decide)
  intro c hc
  unfold positionalText at hc
  split at hc
  · simp only [List.mem_cons, List.mem_append] at hc
    rcases hc with rfl | rfl | hc | hc
    · exact hzero
    · exact hpoint
    · exact isNumeric_of_mem_zeros hc
    · exact hdigits c hc
  · split at hc
    · simp only [List.mem_append] at hc
      rcases hc with (hc | hc) | hc
      · exact hdigits c hc
      · exact isNumeric_of_mem_zeros hc
      · split at hc
        · simp only [List.mem_cons, List.not_mem_nil, or_false] at hc
          rcases hc with rfl | rfl
          · exact hpoint
          · exact hzero
        · simp at hc
    · simp only [List.mem_append, List.mem_cons] at hc
      rcases hc with hc | rfl | hc
      · exact hdigits c (List.mem_of_mem_take hc)
      · exact hpoint
      · exact hdigits c (List.mem_of_mem_drop hc)

theorem isNumeric_of_mem_exponentText {digits : List Char} {decade : Int}
    (hdigits : ∀ c ∈ digits, IsNumeric c) :
    ∀ c ∈ exponentText digits decade, IsNumeric c := by
  have hmark : IsNumeric (if decade < 0 then '-' else '+') := by
    split <;> exact .inr (by decide)
  intro c hc
  cases digits with
  | nil => simp [exponentText] at hc
  | cons d ds =>
      cases ds with
      | nil =>
          simp only [exponentText, List.mem_cons] at hc
          rcases hc with rfl | rfl | rfl | hc
          · exact hdigits c (by simp)
          · exact .inr (by decide)
          · exact hmark
          · exact isNumeric_of_mem_toDigits hc
      | cons d' ds =>
          simp only [exponentText, List.mem_cons, List.mem_append] at hc
          rcases hc with rfl | rfl | (rfl | hc) | rfl | rfl | hc
          · exact hdigits c (by simp)
          · exact .inr (by decide)
          · exact hdigits c (by simp)
          · exact hdigits c (by simp [hc])
          · exact .inr (by decide)
          · exact hmark
          · exact isNumeric_of_mem_toDigits hc

theorem Layout.isNumeric_of_mem_text (layout : Layout) (x : Binary64) :
    ∀ c ∈ (layout.text x).toList, IsNumeric c := by
  have hdigits : ∀ (n : Nat), ∀ c ∈ Nat.toDigits 10 n, IsNumeric c :=
    fun _ _ => isNumeric_of_mem_toDigits
  have hzero : IsNumeric '0' := .inl (by decide)
  have hpoint : IsNumeric '.' := .inr (by decide)
  intro c hc
  simp only [Layout.text, String.toList_ofList] at hc
  -- the sign stands before the digits, which are laid out in one of three ways
  have hunsigned : ∀ digits : List Char, (∀ c ∈ digits, IsNumeric c) →
      c ∈ (if x.negative then '-' :: digits else digits) → IsNumeric c := by
    intro digits hall hmem
    split at hmem
    · rcases List.mem_cons.mp hmem with rfl | hmem
      · exact .inr (by decide)
      · exact hall c hmem
    · exact hall c hmem
  apply hunsigned _ _ hc
  intro d hd
  split at hd
  · split at hd <;> simp only [List.mem_cons, List.not_mem_nil, or_false] at hd
    · rcases hd with rfl | rfl | rfl
      · exact hzero
      · exact hpoint
      · exact hzero
    · exact hd ▸ hzero
  · split at hd
    · exact isNumeric_of_mem_positionalText (hdigits _) d hd
    · exact isNumeric_of_mem_exponentText (hdigits _) d hd

end Binary64

namespace Json.Number

theorem toList_toString_natCast (n : Nat) : (toString (n : Int)).toList = Nat.toDigits 10 n :=
  Nat.toList_repr

theorem toList_toString_neg (n : Nat) (h : 0 < n) :
    (toString (-(n : Int))).toList = '-' :: Nat.toDigits 10 n := by
  obtain ⟨m, rfl⟩ := Nat.exists_eq_add_of_lt h
  rw [Nat.zero_add]
  change ("-" ++ Nat.repr (m + 1)).toList = _
  rw [String.toList_append, Nat.toList_repr]
  rfl

theorem isNumeric_of_mem_text (n : Number) : ∀ c ∈ n.text.toList, IsNumeric c := by
  intro c hc
  cases n with
  | real x => exact Binary64.Layout.isNumeric_of_mem_text layout x c hc
  | integer n =>
      obtain ⟨m, rfl | rfl⟩ := Int.eq_nat_or_neg n
      · rw [text, toList_toString_natCast] at hc
        exact isNumeric_of_mem_toDigits hc
      · rcases Nat.eq_zero_or_pos m with rfl | hm
        · exact isNumeric_of_mem_toDigits (n := 0) hc
        · rw [text, toList_toString_neg m hm] at hc
          rcases List.mem_cons.mp hc with rfl | hc
          · exact .inr (by decide)
          · exact isNumeric_of_mem_toDigits hc

end Json.Number

end DashboardScript
