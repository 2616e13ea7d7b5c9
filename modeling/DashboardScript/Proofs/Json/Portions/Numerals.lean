import DashboardScript.Proofs.Json.Numerals
import DashboardScript.Proofs.Json.Portions
import Mathlib.Data.List.TakeWhile

namespace DashboardScript.Json

open Grammar

namespace Reader

variable {α β : Type}

section Parts

variable {atEnd : Cause} {text rest : List Char}

-- The reader takes the chunk from any text that goes on with the same character.
def Retakes (reader : Reader α) (chunk : List Char) (a : α) (rest : List Char) : Prop :=
  ∀ other, other.head? = rest.head? → reader (chunk ++ other) = .ok (a, other)

theorem head?_append_congr {other : List Char} (h : other.head? = rest.head?) (chunk : List Char) :
    (chunk ++ other).head? = (chunk ++ rest).head? := by
  rw [List.head?_append, List.head?_append, h]

theorem EndsDigits.of_head? {other : List Char} (h : EndsDigits rest)
    (hother : other.head? = rest.head?) : EndsDigits other := fun c hc => h c (hother ▸ hc)

theorem minus_portion {negative : Bool} (h : minus text = .ok (negative, rest)) :
    text = (if negative then ['-'] else []) ++ rest ∧
      Retakes minus (if negative then ['-'] else []) negative rest := by
  by_cases hsign : text.head? = some '-'
  · obtain ⟨tail, rfl⟩ := List.head?_eq_some_iff.mp hsign
    obtain ⟨rfl, rfl⟩ : true = negative ∧ tail = rest := by simpa using Except.ok.inj h
    exact ⟨rfl, fun other _ => rfl⟩
  · have hnone : ∀ other : List Char, other.head? = text.head? → minus other = .ok (false, other) :=
      fun other hother => by
        rw [minus, bind_of_ok _ (peek_run _), if_neg (by rwa [hother]), pure_run]
    obtain ⟨rfl, rfl⟩ : false = negative ∧ text = rest := by
      simpa using Except.ok.inj ((hnone text rfl).symm.trans h)
    exact ⟨rfl, hnone⟩

theorem digits_portion {ds : List Char} (h : digits text = .ok (ds, rest)) :
    text = ds ++ rest ∧ (∀ d ∈ ds, d.isDigit) ∧ EndsDigits rest := by
  obtain ⟨rfl, rfl⟩ := Prod.mk.inj (Except.ok.inj h)
  refine ⟨List.takeWhile_append_dropWhile.symm, fun _ => List.mem_takeWhile_imp, fun c hc => ?_⟩
  have hhead := List.head?_dropWhile_not Char.isDigit text
  rw [hc] at hhead
  simpa using hhead

theorem someDigits_portion {ds : List Char} (h : someDigits atEnd text = .ok (ds, rest)) :
    text = ds ++ rest ∧ (ds ≠ [] ∧ ∀ d ∈ ds, d.isDigit) ∧ EndsDigits rest := by
  cases text with
  | nil => cases h
  | cons c tail =>
      rw [someDigits, bind_of_ok _ (peek_cons c tail)] at h
      dsimp only at h
      split at h
      case isTrue hc =>
        obtain ⟨htext, hds, hends⟩ := digits_portion h
        refine ⟨htext, ⟨?_, hds⟩, hends⟩
        rintro rfl
        exact hends c (by rw [← List.nil_append rest, ← htext]; rfl) hc
      case isFalse => cases h

theorem wholeDigits_portion {ds : List Char} (h : wholeDigits atEnd text = .ok (ds, rest)) :
    text = ds ++ rest ∧ WholeDigits ds ∧ EndsDigits rest := by
  rw [wholeDigits, bind_of_ok _ (peek_run text)] at h
  split at h
  case isTrue hzero =>
    obtain ⟨tail, rfl⟩ := List.head?_eq_some_iff.mp hzero
    rw [bind_of_ok _ (advance_cons '0' tail), bind_of_ok _ (peek_run tail)] at h
    have hstop : EndsDigits tail ∧ ds = ['0'] ∧ rest = tail := by
      cases tail with
      | nil =>
          obtain ⟨rfl, rfl⟩ := Prod.mk.inj (Except.ok.inj h)
          exact ⟨by simp [EndsDigits], rfl, rfl⟩
      | cons c tail =>
          dsimp only [List.head?_cons] at h
          split at h
          case isTrue => cases h
          case isFalse hc =>
            obtain ⟨rfl, rfl⟩ := Prod.mk.inj (Except.ok.inj h)
            exact ⟨fun d hd => Option.some.inj hd ▸ hc, rfl, rfl⟩
    obtain ⟨hends, rfl, rfl⟩ := hstop
    exact ⟨rfl, ⟨by simp, .inl rfl⟩, hends⟩
  case isFalse hzero =>
    obtain ⟨rfl, ⟨hne, hds⟩, hends⟩ := someDigits_portion h
    obtain ⟨d, tail, rfl⟩ := List.exists_cons_of_ne_nil hne
    exact ⟨rfl, ⟨hds, .inr ⟨d, tail, rfl, fun hd => hzero (hd ▸ rfl)⟩⟩, hends⟩

theorem fractionDigits_portion {ds : List Char} (h : fractionDigits atEnd text = .ok (ds, rest)) :
    ∃ fraction : Option Digits, text = (fraction.elim [] fun ds => '.' :: ds.val) ++ rest ∧
      Retakes (fractionDigits atEnd) (fraction.elim [] fun ds => '.' :: ds.val)
        (fraction.elim [] Subtype.val) rest := by
  by_cases hpoint : text.head? = some '.'
  · obtain ⟨tail, rfl⟩ := List.head?_eq_some_iff.mp hpoint
    rw [fractionDigits, bind_of_ok _ (peek_run _), if_pos hpoint,
      bind_of_ok _ (advance_cons '.' tail)] at h
    obtain ⟨taken, between, hdigits, hrest⟩ := exists_of_bind_ok h
    obtain ⟨rfl, hall, hends⟩ := digits_portion hdigits
    cases taken with
    | nil => cases between <;> cases hrest
    | cons d taken =>
        obtain ⟨rfl, rfl⟩ := Prod.mk.inj (Except.ok.inj hrest)
        refine ⟨some ⟨d :: taken, List.cons_ne_nil d taken, hall⟩, rfl, fun other hother => ?_⟩
        exact fractionDigits_text atEnd ⟨d :: taken, _⟩ (hends.of_head? hother)
  · have hnone : ∀ other : List Char, other.head? = text.head? →
        fractionDigits atEnd other = .ok ([], other) := fun other hother => by
      rw [fractionDigits, bind_of_ok _ (peek_run _), if_neg (by rwa [hother]), pure_run]
    obtain ⟨-, rfl⟩ := Prod.mk.inj (Except.ok.inj ((hnone text rfl).symm.trans h))
    exact ⟨none, rfl, hnone⟩

theorem isExponentMark_iff {c : Char} :
    isExponentMark (some c) ↔ ∃ capital : Bool, c = if capital then 'E' else 'e' := by
  simp [isExponentMark, or_comm]

-- The part of an exponent behind its mark.
theorem exponent_portion {tail : List Char} {sign : Option Char} {a : Option (Bool × List Char)}
    (hsign : tail.head? = sign)
    (h : (do
      if sign = some '+' ∨ sign = some '-' then advance
      let ds ← someDigits atEnd
      pure (some (sign == some '-', ds)) : Reader _) tail = .ok (a, rest)) :
    ∃ (sign : Option Bool) (ds : Digits),
      tail = (sign.elim [] fun minus => [if minus then '-' else '+']) ++ ds.val ++ rest ∧
        EndsDigits rest := by
  have hdigits : ∀ {text : List Char}, (do
      let ds ← someDigits atEnd
      pure (some (sign == some '-', ds)) : Reader _) text = .ok (a, rest) →
        ∃ ds : Digits, text = ds.val ++ rest ∧ EndsDigits rest := by
    intro text hrun
    obtain ⟨ds, between, hsome, hrest⟩ := exists_of_bind_ok hrun
    obtain ⟨-, rfl⟩ := Prod.mk.inj (Except.ok.inj hrest)
    obtain ⟨rfl, hds, hends⟩ := someDigits_portion hsome
    exact ⟨⟨ds, hds⟩, rfl, hends⟩
  by_cases hplus : sign = some '+'
  · obtain ⟨behind, rfl⟩ := List.head?_eq_some_iff.mp (hsign.trans hplus)
    rw [if_pos (.inl hplus)] at h
    obtain ⟨ds, rfl, hends⟩ := hdigits h
    exact ⟨some false, ds, rfl, hends⟩
  · by_cases hminus : sign = some '-'
    · obtain ⟨behind, rfl⟩ := List.head?_eq_some_iff.mp (hsign.trans hminus)
      rw [if_pos (.inr hminus)] at h
      obtain ⟨ds, rfl, hends⟩ := hdigits h
      exact ⟨some true, ds, rfl, hends⟩
    · rw [if_neg (not_or_intro hplus hminus)] at h
      obtain ⟨ds, rfl, hends⟩ := hdigits h
      exact ⟨none, ds, rfl, hends⟩

theorem exponentDigits_portion {a : Option (Bool × List Char)}
    (h : exponentDigits atEnd text = .ok (a, rest)) :
    ∃ exponent : Option Exponent, text = exponent.elim [] Exponent.text ++ rest ∧
      Retakes (exponentDigits atEnd) (exponent.elim [] Exponent.text)
        (exponent.map fun e => (e.sign == some true, e.digits.val)) rest := by
  by_cases hmark : isExponentMark text.head?
  · cases text with
    | nil => cases hmark
    | cons c tail =>
        rw [List.head?_cons] at hmark
        rw [exponentDigits, bind_of_ok _ (peek_cons c tail), if_pos hmark,
          bind_of_ok _ (advance_cons c tail), bind_of_ok _ (peek_run tail)] at h
        obtain ⟨capital, rfl⟩ := isExponentMark_iff.mp hmark
        obtain ⟨sign, ds, rfl, hends⟩ := exponent_portion rfl h
        refine ⟨some ⟨capital, sign, ds⟩, ?_, fun other hother => ?_⟩
        · simp only [Option.elim_some, Exponent.text, List.cons_append, List.append_assoc]
        · exact exponentDigits_text atEnd ⟨capital, sign, ds⟩ (hends.of_head? hother)
  · have hnone : ∀ other : List Char, other.head? = text.head? →
        exponentDigits atEnd other = .ok (none, other) := fun other hother => by
      rw [exponentDigits, bind_of_ok _ (peek_run _), if_neg (by rwa [hother]), pure_run]
    obtain ⟨-, rfl⟩ := Prod.mk.inj (Except.ok.inj ((hnone text rfl).symm.trans h))
    exact ⟨none, rfl, hnone⟩

theorem numeral_portion {a : Numeral} (h : numeral atEnd text = .ok (a, rest)) :
    ∃ n : Spelling, text = n.text ++ rest ∧ Retakes (numeral atEnd) n.text n.numeral rest := by
  obtain ⟨negative, behindSign, hminus, h⟩ := exists_of_bind_ok h
  obtain ⟨whole, behindWhole, hwhole, h⟩ := exists_of_bind_ok h
  obtain ⟨fraction, behindFraction, hfraction, h⟩ := exists_of_bind_ok h
  obtain ⟨exponent, behindExponent, hexponent, h⟩ := exists_of_bind_ok h
  obtain ⟨-, rfl⟩ := Prod.mk.inj (Except.ok.inj h)
  obtain ⟨rfl, hsign⟩ := minus_portion hminus
  obtain ⟨rfl, hdigits, hends⟩ := wholeDigits_portion hwhole
  obtain ⟨ds, rfl, hpoint⟩ := fractionDigits_portion hfraction
  obtain ⟨e, rfl, hmark⟩ := exponentDigits_portion hexponent
  have hagain : Retakes (wholeDigits atEnd) whole whole _ :=
    fun other hother => wholeDigits_append hdigits (hends.of_head? hother) atEnd
  refine ⟨⟨negative, ⟨whole, hdigits⟩, ds, e⟩, ?_, fun other hother => ?_⟩
  · simp only [Spelling.text, Spelling.fractionText, Spelling.exponentText, List.append_assoc]
  · have hbehindFraction := head?_append_congr hother (e.elim [] Exponent.text)
    have hbehindWhole := head?_append_congr hbehindFraction (ds.elim [] fun ds => '.' :: ds.val)
    have hbehindSign := head?_append_congr hbehindWhole whole
    rw [Spelling.text, List.append_assoc, List.append_assoc, List.append_assoc]
    refine (bind_of_ok _ (hsign _ hbehindSign)).trans ?_
    refine (bind_of_ok _ (hagain _ hbehindWhole)).trans ?_
    refine (bind_of_ok _ (hpoint _ hbehindFraction)).trans ?_
    exact bind_of_ok _ (hmark other hother)

end Parts

section Numeral

theorem text_ne_quote (n : Spelling) : ∀ c ∈ n.text, c ≠ '"' := by
  have hdigits : ∀ ds : List Char, (∀ d ∈ ds, d.isDigit) → '"' ∉ ds :=
    fun ds hds hmem => absurd (hds _ hmem) (by decide)
  rintro _ hmem rfl
  simp only [Spelling.text, List.mem_append] at hmem
  rcases hmem with hmem | hmem | hmem | hmem
  · cases n.negative <;> simp at hmem
  · exact hdigits _ n.whole.property.digits hmem
  · unfold Spelling.fractionText at hmem
    cases hfraction : n.fraction with
    | none => simp [hfraction] at hmem
    | some ds => exact hdigits _ ds.property.2 (by simpa [hfraction] using hmem)
  · unfold Spelling.exponentText at hmem
    cases hexponent : n.exponent with
    | none => simp [hexponent] at hmem
    | some e =>
        have hin : '"' ∈ e.digits.val := by
          cases hsign : e.sign <;> cases e.capital <;>
            simpa [hexponent, Exponent.text, hsign, apply_ite] using hmem
        exact hdigits _ e.digits.property.2 hin

-- A number that is cut at its end is still one, and any other cut goes through it.
theorem follows_numeral (c : Char) (atEnd : Cause) :
    Follows c true .outside .outside (numeral atEnd) := by
  intro tail a rest hrun
  obtain ⟨n, htext, hagain⟩ := numeral_portion hrun
  obtain ⟨rfl, -⟩ : n.numeral = a ∧ rest = rest := by
    have hrest := hagain rest rfl
    rw [← htext, hrun] at hrest
    simpa using (Except.ok.inj hrest).symm
  refine ⟨n.text, htext, Spot.after_outside (text_ne_quote n), nofun, fun other hother => ?_, ?_⟩
  · exact .inl (hagain other (hother rfl))
  · intro front back hne hchunk
    cases back with
    | nil =>
        have hfront := numeral_spelling n atEnd endsNumber_nil
        rw [hchunk, List.append_nil, List.append_nil] at hfront
        exact .inl ⟨rfl, hfront⟩
    | cons d back =>
        have hcut : CutsNumber .outside ([] ++ front) ((d :: back) ++ []) :=
          .mk n rfl hchunk hne (List.cons_ne_nil d back)
        rw [List.append_nil] at hcut
        exact .inr (.inr hcut)

theorem follows_number (c : Char) : Follows c true .outside .outside number := by
  refine (follows_numeral c _).bind fun n => ?_
  cases hvalue : n.value? with
  | none => exact sequential_of_none fun text => rfl
  | some value => exact sequential_pure _ _

end Numeral

end Reader

end DashboardScript.Json
