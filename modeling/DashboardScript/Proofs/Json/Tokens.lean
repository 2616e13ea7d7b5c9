import Mathlib.Data.List.Induction
import DashboardScript.Proofs.Json.Rooms

namespace DashboardScript.Json

open Grammar

section Printed

theorem digitChar_of_isDigit {d : Char} (h : d.isDigit) : (d.toNat - '0'.toNat).digitChar = d := by
  obtain ⟨hlow, hhigh⟩ := Char.isDigit_iff_toNat.mp h
  have hzero : '0'.toNat = 48 := rfl
  have hnine : '9'.toNat = 57 := rfl
  have hten : d.toNat - '0'.toNat < 10 := by omega
  apply Char.toNat_inj.mp
  rw [Nat.toNat_digitChar_of_lt_ten hten]
  omega

-- A digit other than zero in front makes a number other than zero.
theorem ofDigitChars_pos {d : Char} (h : d.isDigit) (hne : d ≠ '0') (tail : List Char) :
    0 < Nat.ofDigitChars 10 (d :: tail) 0 := by
  have hmono := Numeral.ofDigitChars_mono tail (10 * 0 + (d.toNat - '0'.toNat))
  have hlow := (Char.isDigit_iff_toNat.mp h).1
  have hvalue : d.toNat ≠ '0'.toNat := fun heq => hne (Char.toNat_inj.mp heq)
  rw [Nat.ofDigitChars_cons]
  omega

theorem toDigits_of_leading {d : Char} (hd : d.isDigit) (hne : d ≠ '0') (tail : List Char)
    (htail : ∀ c ∈ tail, c.isDigit) :
    Nat.toDigits 10 (Nat.ofDigitChars 10 (d :: tail) 0) = d :: tail := by
  -- digits are printed from the last one on, so the induction takes them from the back
  induction tail using List.reverseRecOn with
  | nil =>
      have hlow := Char.isDigit_iff_toNat.mp hd
      have hnine : '9'.toNat = '0'.toNat + 9 := rfl
      rw [Nat.ofDigitChars_cons, Nat.ofDigitChars_nil, Nat.mul_zero, Nat.zero_add,
        Nat.toDigits_of_lt_base (by omega), digitChar_of_isDigit hd]
  | append_singleton tail c ih =>
      obtain ⟨htail, hc⟩ := List.forall_mem_append.mp htail
      have hdigit : c.isDigit := hc c List.mem_cons_self
      have hbounds := Char.isDigit_iff_toNat.mp hdigit
      have hnine : '9'.toNat = '0'.toNat + 9 := rfl
      have hpos := ofDigitChars_pos hd hne tail
      have hfront := ih htail
      rw [← List.cons_append, Nat.ofDigitChars_append, Nat.ofDigitChars_cons, Nat.ofDigitChars_nil]
      generalize hvalue : Nat.ofDigitChars 10 (d :: tail) 0 = value at hpos hfront
      -- the last digit is the remainder, and those before it are the quotient
      have hdiv : (10 * value + (c.toNat - '0'.toNat)) / 10 = value := by omega
      have hmod : (10 * value + (c.toNat - '0'.toNat)) % 10 = c.toNat - '0'.toNat := by omega
      rw [Nat.toDigits_of_base_le (by decide) (by omega), hdiv, hmod, hfront,
        digitChar_of_isDigit hdigit]

-- Without a zero in front, digits are those that are printed for the number they write.
theorem WholeDigits.toDigits_ofDigitChars {ds : List Char} (h : WholeDigits ds) :
    Nat.toDigits 10 (Nat.ofDigitChars 10 ds 0) = ds := by
  rcases h.leading with rfl | ⟨d, tail, rfl, hne⟩
  · rfl
  · exact toDigits_of_leading (h.digits d List.mem_cons_self) hne tail fun c hc =>
      h.digits c (List.mem_cons_of_mem d hc)

theorem WholeDigits.pos {ds : List Char} (h : WholeDigits ds) (hne : ds ≠ ['0']) :
    0 < Nat.ofDigitChars 10 ds 0 := by
  rcases h.leading with rfl | ⟨d, tail, rfl, hd⟩
  · exact absurd rfl hne
  · exact ofDigitChars_pos (h.digits d List.mem_cons_self) hd tail

end Printed

namespace Numeral

-- No digit is left out of a significand that fits.
theorem le_of_absorb {ds : List Char} {s : Nat} (hs : s ≤ wordLimit) (h : (absorb s ds).2 = 0) :
    Nat.ofDigitChars 10 ds s ≤ wordLimit := by
  induction ds generalizing s with
  | nil => exact hs
  | cons d ds ih =>
      have hcomm : s * 10 + Text.digitValue d = 10 * s + (d.toNat - '0'.toNat) := by
        rw [Nat.mul_comm]
        rfl
      rw [Nat.ofDigitChars_cons]
      simp only [absorb, hcomm] at h
      by_cases hnext : 10 * s + (d.toNat - '0'.toNat) ≤ wordLimit
      · rw [if_pos hnext] at h
        exact ih hnext h
      · rw [if_neg hnext] at h
        exact absurd h (Nat.succ_ne_zero _)

-- A number that is kept exact is whole. Its sign and its digits are those that are spelled.
theorem eq_of_value?_integer {n : Numeral} {k : Int} (h : n.value? = some (.integer k)) :
    n.isWhole ∧ (n.negative = false → k = Nat.ofDigitChars 10 n.whole 0) ∧
      (n.negative = true → k < 0) := by
  unfold value? at h
  cases habsorb : absorb 0 n.whole with
  | mk s left =>
      simp only [habsorb] at h
      by_cases hexact : (n.isWhole && left == 0) = true
      · rw [if_pos hexact] at h
        obtain ⟨hwhole, hleft⟩ := Bool.and_eq_true_iff.mp hexact
        have hzero : (absorb 0 n.whole).2 = 0 := by
          rw [habsorb]
          exact beq_iff_eq.mp hleft
        have hfits := absorb_of_le (le_of_absorb (Nat.zero_le _) hzero)
        rw [habsorb] at hfits
        obtain rfl := (Prod.mk.inj hfits).1
        cases hnegative : n.negative with
        | false =>
            rw [hnegative] at h
            refine ⟨hwhole, fun _ => ?_, fun hfalse => absurd hfalse (by simp)⟩
            exact (Number.integer.inj (Option.some.inj h)).symm
        | true =>
            rw [hnegative, if_pos rfl] at h
            split at h
            case isTrue =>
              obtain ⟨x, -, hx⟩ := Option.map_eq_some_iff.mp h
              cases hx
            case isFalse hreal =>
              have hk := Number.integer.inj (Option.some.inj h)
              refine ⟨hwhole, fun hfalse => absurd hfalse (by simp), fun _ => ?_⟩
              omega
      · rw [if_neg hexact] at h
        obtain ⟨x, -, hx⟩ := Option.map_eq_some_iff.mp h
        cases hx

end Numeral

namespace Grammar.Spelling

variable (n : Spelling)

theorem isWhole_iff : n.numeral.isWhole ↔ n.fraction = none ∧ n.exponent = none := by
  unfold Numeral.isWhole numeral
  rw [Bool.and_eq_true_iff]
  refine and_congr ?_ ?_
  · cases n.fraction with
    | none => simp
    | some ds => simp [ds.property.1]
  · cases n.exponent <;> simp

variable {n}

theorem text_of_unsigned (hnegative : n.negative = false) (hfraction : n.fraction = none)
    (hexponent : n.exponent = none) : n.text = n.whole.val := by
  simp [text, fractionText, exponentText, hnegative, hfraction, hexponent]

-- A sign, a point or an exponent shows.
theorem unsigned_of_digits (h : ∀ c ∈ n.text, c.isDigit) :
    n.negative = false ∧ n.fraction = none ∧ n.exponent = none := by
  simp only [text, List.forall_mem_append] at h
  obtain ⟨hsign, -, hfraction, hexponent⟩ := h
  refine ⟨?_, ?_, ?_⟩
  · cases hnegative : n.negative with
    | false => rfl
    | true => exact absurd (hsign '-' (by simp [hnegative])) (by decide)
  · cases hcase : n.fraction with
    | none => rfl
    | some ds => exact absurd (hfraction '.' (by simp [fractionText, hcase])) (by decide)
  · cases hcase : n.exponent with
    | none => rfl
    | some e =>
        have hmark := hexponent (if e.capital then 'E' else 'e')
          (by simp [exponentText, hcase, Exponent.text])
        exact absurd hmark (by cases e.capital <;> decide)

theorem wholeDigits_text_iff :
    WholeDigits n.text ↔ n.negative = false ∧ n.fraction = none ∧ n.exponent = none := by
  constructor
  · exact fun h => unsigned_of_digits h.digits
  · rintro ⟨hnegative, hfraction, hexponent⟩
    rw [text_of_unsigned hnegative hfraction hexponent]
    exact n.whole.property

theorem numeral_of_whole (hfraction : n.fraction = none) (hexponent : n.exponent = none) :
    n.numeral = ⟨n.negative, n.whole.val, [], none⟩ := by
  rw [numeral, hfraction, hexponent]
  rfl

end Grammar.Spelling

-- A whole number of 32 bits as it is written: its digits, with no zero in front.
def IsWord (text : List Char) : Prop :=
  WholeDigits text ∧ Nat.ofDigitChars 10 text 0 ≤ 4294967295

theorem IsWord.toString_eq {text : List Char} (h : IsWord text) {w : UInt32}
    (hw : w.toNat = Nat.ofDigitChars 10 text 0) : toString w = String.ofList text := by
  have hprinted : toString w = Nat.repr w.toNat := rfl
  rw [hprinted, hw, ← String.toList_inj, Nat.toList_repr, String.toList_ofList,
    h.1.toDigits_ofDigitChars]

namespace Grammar.Spelling

-- The spelling that a natural number is printed in.
def ofNat (n : Nat) : Spelling := ⟨false, ⟨Nat.toDigits 10 n, wholeDigits_toDigits n⟩, none, none⟩

theorem isWord_ofNat_iff (n : Nat) : IsWord (ofNat n).text ↔ n ≤ 4294967295 := by
  have htext : (ofNat n).text = Nat.toDigits 10 n := text_of_unsigned rfl rfl rfl
  rw [IsWord, htext, Nat.ofDigitChars_ten_toDigits]
  exact and_iff_right (wholeDigits_toDigits n)

end Grammar.Spelling

-- The number that digits write behind a minus or without one.
def signed (negative : Bool) (ds : List Char) : Int :=
  if negative then -(Nat.ofDigitChars 10 ds 0 : Int) else Nat.ofDigitChars 10 ds 0

-- A whole number of at most 64 bits, signed or not, as it is written. Zero has no minus.
structure IntegerToken where
  negative : Bool
  digits : { ds : List Char // WholeDigits ds }
  plainZero : digits.val = ['0'] → negative = false
  low : -9223372036854775808 ≤ signed negative digits.val
  high : signed negative digits.val ≤ 18446744073709551615

namespace IntegerToken

variable (token : IntegerToken)

def value : Int := signed token.negative token.digits.val

def text : List Char := (if token.negative then ['-'] else []) ++ token.digits.val

def spelling : Spelling := ⟨token.negative, token.digits, none, none⟩

theorem spelling_text : token.spelling.text = token.text :=
  congrArg ((if token.negative then ['-'] else []) ++ ·) (List.append_nil token.digits.val)

theorem pos_of_negative (h : token.negative = true) :
    0 < Nat.ofDigitChars 10 token.digits.val 0 := by
  refine token.digits.property.pos fun hzero => ?_
  rw [token.plainZero hzero] at h
  cases h

-- Within the bounds no number becomes a real one.
theorem value?_spelling : token.spelling.numeral.value? = some (.integer token.value) := by
  have hlow := token.low
  have hhigh := token.high
  have hword : Numeral.wordLimit = 18446744073709551615 := rfl
  have hlimit : Numeral.negativeLimit = 9223372036854775808 := rfl
  rw [Spelling.numeral_of_whole rfl rfl, value]
  change Numeral.value? ⟨token.negative, token.digits.val, [], none⟩ = _
  cases hnegative : token.negative with
  | false =>
      simp only [hnegative, signed, Bool.false_eq_true, if_false] at hhigh
      exact Numeral.value?_of_le (by omega)
  | true =>
      simp only [hnegative, signed, if_true] at hlow
      exact Numeral.value?_negative_of_le (token.pos_of_negative hnegative) (by omega)

-- The number is printed as it was written.
theorem text_integer_value : (Number.integer token.value).text = String.ofList token.text := by
  have hprinted := token.digits.property.toDigits_ofDigitChars
  rw [← String.toList_inj, String.toList_ofList, Number.text, value, text]
  cases hnegative : token.negative with
  | false => exact (Number.toList_toString_natCast _).trans hprinted
  | true =>
      have hpos := token.pos_of_negative hnegative
      exact (Number.toList_toString_neg _ hpos).trans (congrArg ('-' :: ·) hprinted)

end IntegerToken

namespace Decoder

section Word

-- What a word makes of a number.
def wordOf? : Number → Option UInt32
  | .integer k => if 0 ≤ k ∧ k ≤ 0xffffffff then some (UInt32.ofNat k.toNat) else none
  | .real _ => none

theorem settles_word (n : Spelling) (room : Nat) :
    Reader.Settles (word room) n.text (n.numeral.value?.bind wordOf?) := by
  intro rest hrest
  rw [word, (settles_next_number n).run?_bind hrest]
  cases n.numeral.value? with
  | none => rfl
  | some value =>
      cases value with
      | real x => rfl
      | integer k =>
          simp only [Option.map_some, Option.bind_some, wordOf?]
          split <;> rfl

theorem toNat_wordOf? {k : Nat} {w : UInt32} (h : wordOf? (.integer k) = some w) :
    w.toNat = k ∧ k ≤ 4294967295 := by
  rw [wordOf?, Option.ite_none_right_eq_some] at h
  obtain ⟨⟨-, hle⟩, hword⟩ := h
  obtain rfl := Option.some.inj hword
  have hlt : k < UInt32.size := by
    have hsize : UInt32.size = 4294967296 := rfl
    omega
  exact ⟨UInt32.toNat_ofNat_of_lt' hlt, by omega⟩

-- A word is read from its own digits alone.
theorem value?_word_eq_some_iff (n : Spelling) (room : Nat) (w : UInt32) :
    (word.within room).value? n.text = some w ↔
      IsWord n.text ∧ w.toNat = Nat.ofDigitChars 10 n.text 0 := by
  rw [value?_within (local_word.blanks room) (settles_word n room), Option.bind_eq_some_iff]
  constructor
  · rintro ⟨value, hvalue, hw⟩
    cases value with
    | real x => cases hw
    | integer k =>
        obtain ⟨hwhole, hunsigned, hsigned⟩ := Numeral.eq_of_value?_integer hvalue
        obtain ⟨hfraction, hexponent⟩ := n.isWhole_iff.mp hwhole
        cases hnegative : n.negative with
        | true =>
            -- a sign that is kept makes a number below zero
            have hk := hsigned hnegative
            rw [wordOf?, if_neg (by omega)] at hw
            cases hw
        | false =>
            obtain rfl := hunsigned hnegative
            have htext := Spelling.text_of_unsigned hnegative hfraction hexponent
            obtain ⟨hword, hle⟩ := toNat_wordOf? hw
            rw [IsWord, htext]
            exact ⟨⟨n.whole.property, hle⟩, hword⟩
  · rintro ⟨⟨hdigits, hle⟩, hw⟩
    obtain ⟨hnegative, hfraction, hexponent⟩ := Spelling.wholeDigits_text_iff.mp hdigits
    rw [Spelling.text_of_unsigned hnegative hfraction hexponent] at hle hw
    have hlimit : 4294967295 ≤ Numeral.wordLimit := by decide
    refine ⟨.integer (Nat.ofDigitChars 10 n.whole.val 0), ?_, ?_⟩
    · rw [Spelling.numeral_of_whole hfraction hexponent, hnegative]
      exact Numeral.value?_of_le (Nat.le_trans hle hlimit)
    · rw [wordOf?, if_pos (by omega), Int.toNat_natCast, ← hw, UInt32.ofNat_toNat]

end Word

section Integer

theorem settles_number_token (token : IntegerToken) (room : Nat) :
    Reader.Settles (number room) token.text (some (.integer token.value)) := by
  intro rest hrest
  rw [← token.spelling_text, number, (settles_next_number token.spelling).run?_bind hrest,
    token.value?_spelling]
  rfl

theorem value?_optional_token (token : IntegerToken) (room : Nat) :
    ((optional number).within room).value? token.text = some (some (.integer token.value)) := by
  have hread := settles_number_token token room
  obtain ⟨c, tail, htext, hc⟩ := Reader.text_begins token.spelling
  rw [token.spelling_text] at htext
  rw [htext] at hread ⊢
  obtain ⟨hblank, -, hpresent⟩ := Reader.not_blank_of_numeral hc
  exact value?_within (ignoresBlanks_optional number room)
    (settles_optional_present hblank hpresent hread)

end Integer

end Decoder

end DashboardScript.Json
