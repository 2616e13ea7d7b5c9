import DashboardScript.Proofs.Json.NumberText
import DashboardScript.Proofs.Json.Reading

namespace DashboardScript.Json

-- The digits of a whole number, with no zero in front.
structure WholeDigits (ds : List Char) : Prop where
  digits : ∀ d ∈ ds, d.isDigit
  leading : ds = ['0'] ∨ ∃ d tail, ds = d :: tail ∧ d ≠ '0'

theorem WholeDigits.exists_cons {ds : List Char} (h : WholeDigits ds) :
    ∃ d tail, ds = d :: tail ∧ d.isDigit := by
  rcases h.leading with rfl | ⟨d, tail, rfl, _⟩
  · exact ⟨'0', [], rfl, rfl⟩
  · exact ⟨d, tail, rfl, h.digits d List.mem_cons_self⟩

theorem wholeDigits_toDigits (n : Nat) : WholeDigits (Nat.toDigits 10 n) := by
  refine ⟨fun d hd => Nat.isDigit_of_mem_toDigits (by decide) (by decide) hd, ?_⟩
  induction n using Nat.strongRecOn with
  | ind n ih =>
      by_cases hlt : n < 10
      · have hchar : ∀ m < 10, m = 0 ∨ m.digitChar ≠ '0' := by decide
        rw [Nat.toDigits_of_lt_base hlt]
        rcases hchar n hlt with rfl | hne
        · exact .inl rfl
        · exact .inr ⟨_, _, rfl, hne⟩
      · -- the leading digit is that of a tenth, which is not zero
        rw [Nat.toDigits_of_base_le (by decide) (by omega)]
        rcases ih (n / 10) (by omega) with hzero | ⟨d, tail, htail, hne⟩
        · have hvalue := congrArg (fun ds => Nat.ofDigitChars 10 ds 0) hzero
          simp only [Nat.ofDigitChars_ten_toDigits] at hvalue
          have hone : Nat.ofDigitChars 10 ['0'] 0 = 0 := rfl
          omega
        · exact .inr ⟨d, tail ++ [(n % 10).digitChar], by rw [htail, List.cons_append], hne⟩

namespace Numeral

theorem ofDigitChars_mono (ds : List Char) (s : Nat) : s ≤ Nat.ofDigitChars 10 ds s := by
  induction ds generalizing s with
  | nil => simp
  | cons d ds ih =>
      have hstep := ih (10 * s + (d.toNat - '0'.toNat))
      rw [Nat.ofDigitChars_cons]
      omega

-- A significand that fits as a whole is taken as a whole.
theorem absorb_of_le {ds : List Char} {s : Nat} (h : Nat.ofDigitChars 10 ds s ≤ wordLimit) :
    absorb s ds = (Nat.ofDigitChars 10 ds s, 0) := by
  induction ds generalizing s with
  | nil => simp [absorb]
  | cons d ds ih =>
      have hcomm : s * 10 + Text.digitValue d = 10 * s + (d.toNat - '0'.toNat) := by
        rw [Nat.mul_comm]
        rfl
      rw [Nat.ofDigitChars_cons] at h ⊢
      have hle := ofDigitChars_mono ds (10 * s + (d.toNat - '0'.toNat))
      simp only [absorb, hcomm]
      rw [if_pos (by omega), ih h]

theorem value?_of_le {ds : List Char} (h : Nat.ofDigitChars 10 ds 0 ≤ wordLimit) :
    value? ⟨false, ds, [], none⟩ = some (.integer (Nat.ofDigitChars 10 ds 0)) := by
  simp [value?, absorb_of_le h, isWhole]

theorem value?_negative_of_le {ds : List Char} (hpos : 0 < Nat.ofDigitChars 10 ds 0)
    (h : Nat.ofDigitChars 10 ds 0 ≤ negativeLimit) :
    value? ⟨true, ds, [], none⟩ = some (.integer (-(Nat.ofDigitChars 10 ds 0 : Int))) := by
  have hlimit : negativeLimit ≤ wordLimit := by decide
  have hreal : ¬(Nat.ofDigitChars 10 ds 0 = 0 ∨ negativeLimit < Nat.ofDigitChars 10 ds 0) := by
    omega
  simp [value?, absorb_of_le (Nat.le_trans h hlimit), isWhole, hreal]

end Numeral

namespace Reader

-- No run of digits goes on with what comes next.
def EndsDigits (rest : List Char) : Prop := ∀ c ∈ rest.head?, ¬c.isDigit

theorem EndsNumber.endsDigits {rest : List Char} (h : EndsNumber rest) : EndsDigits rest :=
  fun c hc => (h c hc).1

theorem digits_append {ds rest : List Char} (hds : ∀ d ∈ ds, d.isDigit) (hrest : EndsDigits rest) :
    digits (ds ++ rest) = .ok (ds, rest) := by
  have hstop : rest.takeWhile Char.isDigit = [] ∧ rest.dropWhile Char.isDigit = rest := by
    cases rest with
    | nil => exact ⟨rfl, rfl⟩
    | cons c rest =>
        have hc : ¬c.isDigit := hrest c rfl
        simp [hc]
  rw [digits, List.takeWhile_append_of_pos hds, List.dropWhile_append_of_pos hds, hstop.1, hstop.2,
    List.append_nil]

theorem wholeDigits_append {ds rest : List Char} (hds : WholeDigits ds) (hrest : EndsDigits rest)
    (atEnd : Cause) : wholeDigits atEnd (ds ++ rest) = .ok (ds, rest) := by
  rcases hds.leading with rfl | ⟨d, tail, rfl, hne⟩
  · rw [wholeDigits, List.singleton_append, bind_of_ok _ (peek_cons '0' rest)]
    simp only [if_true]
    rw [bind_of_ok _ (advance_cons '0' rest)]
    cases rest with
    | nil => rfl
    | cons c rest =>
        have hc : ¬c.isDigit := hrest c rfl
        rw [bind_of_ok _ (peek_cons c rest)]
        simp only [hc, Bool.false_eq_true, if_false]
        rfl
  · have hd : d.isDigit := hds.digits d List.mem_cons_self
    have hzero : ¬some d = some '0' := fun h => hne (Option.some.inj h)
    rw [wholeDigits, List.cons_append, bind_of_ok _ (peek_cons d _), if_neg hzero, someDigits,
      bind_of_ok _ (peek_cons d _)]
    simp only [hd, if_true]
    exact digits_append hds.digits hrest

theorem peek_run (rest : List Char) : peek rest = .ok (rest.head?, rest) := rfl

theorem fractionDigits_none {rest : List Char} (hrest : EndsNumber rest) (atEnd : Cause) :
    fractionDigits atEnd rest = .ok ([], rest) := by
  have hpoint : ¬rest.head? = some '.' := fun h => (hrest '.' h).2.1 rfl
  rw [fractionDigits, bind_of_ok _ (peek_run rest), if_neg hpoint, pure_run]

theorem exponentDigits_none {rest : List Char} (hrest : EndsNumber rest) (atEnd : Cause) :
    exponentDigits atEnd rest = .ok (none, rest) := by
  have hmark : ¬isExponentMark rest.head? = true := by
    intro h
    simp only [isExponentMark, Bool.or_eq_true, beq_iff_eq] at h
    rcases h with h | h
    · exact (hrest 'e' h).2.2.1 rfl
    · exact (hrest 'E' h).2.2.2 rfl
  rw [exponentDigits, bind_of_ok _ (peek_run rest), if_neg hmark, pure_run]

-- The spelling of a whole number behind its sign.
theorem numeral_whole {ds rest text : List Char} {negative : Bool} (hds : WholeDigits ds)
    (hrest : EndsNumber rest) (hminus : minus text = .ok (negative, ds ++ rest)) (atEnd : Cause) :
    numeral atEnd text = .ok (⟨negative, ds, [], none⟩, rest) := by
  rw [numeral, bind_of_ok _ hminus, bind_of_ok _ (wholeDigits_append hds hrest.endsDigits atEnd),
    bind_of_ok _ (fractionDigits_none hrest atEnd), bind_of_ok _ (exponentDigits_none hrest atEnd),
    pure_run]

theorem number_of_numeral {text rest : List Char} {n : Numeral} {value : Number}
    (hnumeral : numeral (.ended .value) text = .ok (n, rest)) (hvalue : n.value? = some value) :
    number text = .ok (value, rest) := by
  rw [number, bind_of_ok _ hnumeral]
  simp only [hvalue]
  rfl

theorem minus_none {c : Char} (hc : c ≠ '-') (rest : List Char) :
    minus (c :: rest) = .ok (false, c :: rest) := by
  have hne : ¬some c = some '-' := fun h => hc (Option.some.inj h)
  rw [minus, bind_of_ok _ (peek_cons c rest), if_neg hne, pure_run]

theorem number_takes_whole {ds : List Char} (hds : WholeDigits ds)
    (hlimit : Nat.ofDigitChars 10 ds 0 ≤ Numeral.wordLimit) :
    Takes number ds (.integer (Nat.ofDigitChars 10 ds 0)) := by
  intro rest hrest
  obtain ⟨d, tail, rfl, hd⟩ := hds.exists_cons
  have hne : d ≠ '-' := fun h => by simp [h] at hd
  exact number_of_numeral (numeral_whole hds hrest (minus_none hne _) _)
    (Numeral.value?_of_le hlimit)

theorem number_takes_negative {ds : List Char} (hds : WholeDigits ds)
    (hpos : 0 < Nat.ofDigitChars 10 ds 0)
    (hlimit : Nat.ofDigitChars 10 ds 0 ≤ Numeral.negativeLimit) :
    Takes number ('-' :: ds) (.integer (-(Nat.ofDigitChars 10 ds 0 : Int))) := by
  intro rest hrest
  have hminus : minus ('-' :: ds ++ rest) = .ok (true, ds ++ rest) := rfl
  exact number_of_numeral (numeral_whole hds hrest hminus _)
    (Numeral.value?_negative_of_le hpos hlimit)

end Reader

namespace Number

-- A whole number of at most 64 bits is read back from its own text.
theorem takes_text {n : Int} (hlow : -(Numeral.negativeLimit : Int) ≤ n)
    (hhigh : n ≤ Numeral.wordLimit) :
    Reader.Takes Reader.number (integer n).text.toList (.integer n) := by
  obtain ⟨m, rfl | rfl⟩ := Int.eq_nat_or_neg n
  · have htakes := Reader.number_takes_whole (wholeDigits_toDigits m)
      (by rw [Nat.ofDigitChars_ten_toDigits]; omega)
    rwa [Nat.ofDigitChars_ten_toDigits, ← toList_toString_natCast] at htakes
  · rcases Nat.eq_zero_or_pos m with rfl | hm
    · exact Reader.number_takes_whole (wholeDigits_toDigits 0) (by decide)
    · have htakes := Reader.number_takes_negative (wholeDigits_toDigits m)
        (by rw [Nat.ofDigitChars_ten_toDigits]; exact hm)
        (by rw [Nat.ofDigitChars_ten_toDigits]; omega)
      rwa [Nat.ofDigitChars_ten_toDigits, ← toList_toString_neg m hm] at htakes

theorem text_begins (n : Int) :
    ∃ c tail, (integer n).text.toList = c :: tail ∧ (c = '-' ∨ c.isDigit) := by
  obtain ⟨m, hm⟩ := Int.eq_nat_or_neg n
  obtain ⟨d, tail, htail, hd⟩ := (wholeDigits_toDigits m).exists_cons
  rcases hm with rfl | rfl
  · exact ⟨d, tail, (toList_toString_natCast m).trans htail, .inr hd⟩
  · rcases Nat.eq_zero_or_pos m with rfl | hpos
    · exact ⟨d, tail, (toList_toString_natCast 0).trans htail, .inr hd⟩
    · exact ⟨'-', _, toList_toString_neg m hpos, .inl rfl⟩

end Number

end DashboardScript.Json
