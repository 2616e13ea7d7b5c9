import DashboardScript.Proofs.Json.Settling

namespace DashboardScript.Json

open Grammar

-- What is spelled, apart from how.
def Grammar.Spelling.numeral (n : Spelling) : Numeral where
  negative := n.negative
  whole := n.whole.val
  fraction := n.fraction.elim [] Subtype.val
  exponent := n.exponent.map fun e => (e.sign == some true, e.digits.val)

namespace Reader

section Numeral

variable (n : Spelling) {rest : List Char} (atEnd : Cause)

theorem head?_exponentText (hrest : EndsNumber rest) {c : Char}
    (hc : c ∈ (n.exponentText ++ rest).head?) : ¬c.isDigit ∧ c ≠ '.' := by
  cases hexponent : n.exponent with
  | none =>
      rw [Spelling.exponentText, hexponent] at hc
      exact ⟨(hrest c hc).1, (hrest c hc).2.1⟩
  | some e =>
      rw [Spelling.exponentText, hexponent] at hc
      obtain rfl := Option.some.inj hc
      cases e.capital <;> decide

theorem head?_fractionText (hrest : EndsNumber rest) {c : Char}
    (hc : c ∈ (n.fractionText ++ (n.exponentText ++ rest)).head?) : ¬c.isDigit := by
  cases hfraction : n.fraction with
  | none =>
      rw [Spelling.fractionText, hfraction] at hc
      exact (head?_exponentText n hrest hc).1
  | some ds =>
      rw [Spelling.fractionText, hfraction] at hc
      obtain rfl := Option.some.inj hc
      decide

theorem exists_cons_of_digits (ds : Digits) : ∃ d tail, ds.val = d :: tail ∧ d.isDigit := by
  obtain ⟨ds, hne, hds⟩ := ds
  obtain ⟨d, tail, rfl⟩ := List.exists_cons_of_ne_nil hne
  exact ⟨d, tail, rfl, hds d List.mem_cons_self⟩

theorem fractionDigits_text (ds : Digits) (hrest : EndsDigits rest) :
    fractionDigits atEnd ('.' :: (ds.val ++ rest)) = .ok (ds.val, rest) := by
  have hall := digits_append ds.property.2 hrest
  obtain ⟨d, tail, htail, hd⟩ := exists_cons_of_digits ds
  rw [htail] at hall ⊢
  rw [fractionDigits, bind_of_ok _ (peek_cons '.' _), if_pos rfl]
  exact (bind_of_ok _ (advance_cons '.' _)).trans (bind_of_ok _ hall)

theorem fractionDigits_spelling (hrest : EndsNumber rest) :
    fractionDigits atEnd (n.fractionText ++ (n.exponentText ++ rest)) =
      .ok (n.numeral.fraction, n.exponentText ++ rest) := by
  unfold Spelling.fractionText Spelling.numeral
  cases n.fraction with
  | none =>
      have hpoint : ¬(n.exponentText ++ rest).head? = some '.' :=
        fun h => (head?_exponentText n hrest h).2 rfl
      simp only [Option.elim_none, List.nil_append]
      rw [fractionDigits, bind_of_ok _ (peek_run _), if_neg hpoint, pure_run]
  | some ds => exact fractionDigits_text atEnd ds fun c hc => (head?_exponentText n hrest hc).1

theorem someDigits_append (ds : Digits) (hrest : EndsDigits rest) :
    someDigits atEnd (ds.val ++ rest) = .ok (ds.val, rest) := by
  have hall := digits_append ds.property.2 hrest
  obtain ⟨d, tail, htail, hd⟩ := exists_cons_of_digits ds
  rw [htail] at hall ⊢
  rw [someDigits, List.cons_append, bind_of_ok _ (peek_cons d _)]
  simp only [hd, if_true]
  exact hall

-- The digits of an exponent, with its sign.
theorem exponentDigits_text (e : Exponent) (hrest : EndsDigits rest) :
    exponentDigits atEnd (e.text ++ rest) =
      .ok (some (e.sign == some true, e.digits.val), rest) := by
  have hdigits := bind_of_ok
    (fun ds => (pure (some (e.sign == some true, ds)) : Reader (Option (Bool × List Char))))
    (someDigits_append atEnd e.digits hrest)
  have hmark : isExponentMark (some (if e.capital then 'E' else 'e')) = true := by
    cases e.capital <;> rfl
  rw [exponentDigits, Exponent.text, List.cons_append, bind_of_ok _ (peek_cons _ _), if_pos hmark]
  refine (bind_of_ok _ (advance_cons _ _)).trans ?_
  cases hsign : e.sign with
  | none =>
      obtain ⟨d, tail, htail, hd⟩ := exists_cons_of_digits e.digits
      have hsigns : ¬(some d = some '+' ∨ some d = some '-') := by
        rintro (h | h) <;> simp [Option.some.inj h] at hd
      rw [hsign, htail] at hdigits
      simp only [Option.elim_none, List.nil_append, htail]
      refine (bind_of_ok _ (peek_cons d _)).trans ?_
      have hplain : (some d == some '-') = ((none : Option Bool) == some true) :=
        beq_eq_false_iff_ne.mpr fun h => hsigns (.inr h)
      rw [if_neg hsigns, hplain]
      exact hdigits
  | some minus =>
      rw [hsign] at hdigits
      cases minus with
      | false => exact hdigits
      | true => exact hdigits

theorem exponentDigits_spelling (hrest : EndsNumber rest) :
    exponentDigits atEnd (n.exponentText ++ rest) = .ok (n.numeral.exponent, rest) := by
  unfold Spelling.exponentText Spelling.numeral
  cases n.exponent with
  | none => exact exponentDigits_none hrest atEnd
  | some e => exact exponentDigits_text atEnd e hrest.endsDigits

theorem minus_spelling (behind : List Char) :
    minus ((if n.negative then ['-'] else []) ++ (n.whole.val ++ behind)) =
      .ok (n.negative, n.whole.val ++ behind) := by
  cases n.negative with
  | false =>
      obtain ⟨d, tail, htail, hd⟩ := n.whole.property.exists_cons
      have hne : d ≠ '-' := fun h => by simp [h] at hd
      simp only [htail, List.cons_append]
      exact minus_none hne _
  | true => rfl

-- However a number is spelled, it is taken as a whole.
theorem numeral_spelling (hrest : EndsNumber rest) :
    numeral atEnd (n.text ++ rest) = .ok (n.numeral, rest) := by
  have hwhole := wholeDigits_append n.whole.property
    (fun c hc => head?_fractionText n hrest hc) atEnd
  rw [Spelling.text, List.append_assoc, List.append_assoc, List.append_assoc, numeral,
    bind_of_ok _ (minus_spelling n _), bind_of_ok _ hwhole,
    bind_of_ok _ (fractionDigits_spelling n atEnd hrest),
    bind_of_ok _ (exponentDigits_spelling n atEnd hrest), pure_run]
  rfl

theorem settles_number : Settles number n.text n.numeral.value? := by
  intro rest hrest
  rw [number, run?_bind_of_ok _ (numeral_spelling n _ hrest)]
  cases n.numeral.value? <;> rfl

theorem text_begins :
    ∃ c tail, n.text = c :: tail ∧ (c = '-' ∨ c.isDigit) := by
  obtain ⟨d, tail, htail, hd⟩ := n.whole.property.exists_cons
  unfold Spelling.text
  cases n.negative with
  | false => exact ⟨d, _, by rw [htail]; rfl, .inr hd⟩
  | true => exact ⟨'-', _, rfl, .inl rfl⟩

end Numeral

end Reader

end DashboardScript.Json
