import DashboardScript.Proofs.Json.Tokens

namespace DashboardScript.Json

open Grammar

namespace Grammar.Glyph

-- The ways to write one character: as it is, by its short escape, by its code, or beyond the codes
-- of four digits by those of a pair of surrogates.
inductive WritesChar : List Glyph → Char → Prop where
  | raw {char : Char} (h : char ≠ '"' ∧ char ≠ '\\' ∧ ¬char < ' ') : WritesChar [raw char h] char
  | short {mark char : Char} (h : (mark, char) ∈ shortEscapes) :
      WritesChar [short mark char h] char
  | code {a b c d : HexDigit} {char : Char} (h : codeOf a b c d = char.toNat) :
      WritesChar [code a b c d] char
  | pair {a b c d x y z w : HexDigit} {char : Char} (hbeyond : 0x10000 ≤ char.toNat)
      (hleading : codeOf a b c d = 0xd800 + (char.toNat - 0x10000) / 0x400)
      (htrailing : codeOf x y z w = 0xdc00 + (char.toNat - 0x10000) % 0x400) :
      WritesChar [code a b c d, code x y z w] char

-- The ways to write a text, which may change from one character to the next.
inductive Writes : List Glyph → List Char → Prop where
  | nil : Writes [] []
  | cons {gs rest : List Glyph} {char : Char} {chars : List Char} (h : WritesChar gs char)
      (hrest : Writes rest chars) : Writes (gs ++ rest) (char :: chars)

section Meaning

variable {char : Char}

theorem toNat_bounds (char : Char) :
    char.toNat < 0xd800 ∨ 0xdfff < char.toNat ∧ char.toNat < 0x110000 := char.valid

-- No character has the code of a surrogate.
theorem not_surrogate {code : Nat} (h : code = char.toNat) :
    ¬IsTrailing code ∧ ¬IsLeading code := by
  have hbounds := toNat_bounds char
  omega

theorem pair_codes {leading trailing : Nat} (hbeyond : 0x10000 ≤ char.toNat)
    (hleading : leading = 0xd800 + (char.toNat - 0x10000) / 0x400)
    (htrailing : trailing = 0xdc00 + (char.toNat - 0x10000) % 0x400) :
    IsLeading leading ∧ IsTrailing trailing ∧ paired leading trailing = char := by
  have hbounds := toNat_bounds char
  refine ⟨by omega, by omega, ?_⟩
  have hcode : 0x10000 + (leading - 0xd800) * 0x400 + (trailing - 0xdc00) = char.toNat := by omega
  rw [paired, hcode, Char.ofNat_toNat]

-- However it is written, a character means itself, and what follows is read from there on.
theorem WritesChar.meaning_append {gs : List Glyph} (h : WritesChar gs char) (rest : List Glyph) :
    meaning (gs ++ rest) = (char :: ·) <$> meaning rest := by
  cases h with
  | raw h => rw [List.singleton_append, meaning]
  | short h => rw [List.singleton_append, meaning]
  | code h =>
      obtain ⟨htrailing, hleading⟩ := not_surrogate h
      rw [List.singleton_append, meaning_plain htrailing hleading, h, Char.ofNat_toNat]
  | pair hbeyond hleading htrailing =>
      obtain ⟨hfirst, hsecond, hpaired⟩ := pair_codes hbeyond hleading htrailing
      rw [List.cons_append, List.singleton_append, meaning_pair hfirst hsecond, hpaired]

theorem Writes.meaning_eq {gs : List Glyph} {chars : List Char} (h : Writes gs chars) :
    meaning gs = some chars := by
  induction h with
  | nil => rw [meaning]
  | cons h hrest ih =>
      rw [h.meaning_append, ih]
      rfl

end Meaning

end Grammar.Glyph

namespace Decoder

theorem value?_quotedText {gs : List Glyph} {chars : List Char} (h : Glyph.Writes gs chars)
    (room : Nat) : (text.within room).value? (quotedText gs) = some (String.ofList chars) := by
  refine value?_within (local_text.blanks room) fun rest hrest => ?_
  rw [text, (settles_next_string gs).run?_bind hrest, h.meaning_eq]
  rfl

end Decoder

end DashboardScript.Json
