import DashboardScript.Json.Reader.Skip
import DashboardScript.Proofs.Json.Settling
import DashboardScript.Proofs.Json.Strings

namespace DashboardScript.Json

open Grammar

namespace Grammar.Glyph

section Meaning

variable {a b c d x y z w : HexDigit} {gs : List Glyph}

theorem not_trailing_of_leading {code : Nat} (h : IsLeading code) : ¬IsTrailing code := by
  omega

theorem meaning_plain (htrailing : ¬IsTrailing (codeOf a b c d))
    (hleading : ¬IsLeading (codeOf a b c d)) :
    meaning (code a b c d :: gs) = (Char.ofNat (codeOf a b c d) :: ·) <$> meaning gs := by
  conv_lhs => unfold meaning
  rw [if_neg htrailing, if_neg hleading]

theorem meaning_trailing (htrailing : IsTrailing (codeOf a b c d)) :
    meaning (code a b c d :: gs) = none := by
  unfold meaning
  rw [if_pos htrailing]

theorem meaning_pair (hleading : IsLeading (codeOf a b c d)) (hpair : IsTrailing (codeOf x y z w)) :
    meaning (code a b c d :: code x y z w :: gs) =
      (paired (codeOf a b c d) (codeOf x y z w) :: ·) <$> meaning gs := by
  rw [meaning, if_neg (not_trailing_of_leading hleading), if_pos hleading, if_pos hpair]

theorem meaning_unpaired (hleading : IsLeading (codeOf a b c d))
    (hpair : ¬IsTrailing (codeOf x y z w)) :
    meaning (code a b c d :: code x y z w :: gs) = none := by
  rw [meaning, if_neg (not_trailing_of_leading hleading), if_pos hleading, if_neg hpair]

-- A leading surrogate without a code behind it.
theorem meaning_lone (hleading : IsLeading (codeOf a b c d))
    (hgs : ∀ x y z w rest, gs ≠ code x y z w :: rest) : meaning (code a b c d :: gs) = none := by
  rw [meaning, if_neg (not_trailing_of_leading hleading), if_pos hleading]
  exact hgs

end Meaning

end Grammar.Glyph

namespace Reader

theorem hexDigit?_char : ∀ (value : Fin 16) (capital : Bool),
    Text.hexDigit? (HexDigit.char ⟨value, capital⟩) = some value.val := by
  decide

theorem hexValue?_char (a b c d : HexDigit) :
    hexValue? a.char b.char c.char d.char = some (Glyph.codeOf a b c d) := by
  obtain ⟨a, x⟩ := a
  obtain ⟨b, y⟩ := b
  obtain ⟨c, z⟩ := c
  obtain ⟨d, w⟩ := d
  simp only [hexValue?, hexDigit?_char, Option.bind_eq_bind, Option.bind_some, Option.pure_def,
    Option.some.injEq, Glyph.codeOf]
  omega

theorem shortEscape?_of_mem {mark c : Char} (h : (mark, c) ∈ shortEscapes) :
    shortEscape? mark = some c := by
  have hall : ∀ e ∈ shortEscapes, shortEscape? e.1 = some e.2 := by decide
  exact hall _ h

section Code

variable (a b c d : HexDigit) (most : Nat) (taken rest : List Char)

-- A round at an escape goes on with what the escape stands for, if it stands for anything.
theorem characters_escape :
    (characters (most + 1) taken).run? ('\\' :: rest) =
      (escape.run? rest).bind fun plain => (characters most (plain.1 :: taken)).run? plain.2 := by
  rw [characters, run?_bind_of_ok _ (peek_cons _ _)]
  exact (run?_bind_of_ok _ (advance_cons '\\' rest)).trans (run?_bind escape _ rest)

theorem escape_unicode : escape.run? ('u' :: rest) = unicode.run? rest := by
  rw [escape, run?_bind_of_ok _ (peek_cons _ _)]
  exact run?_bind_of_ok _ (advance_cons 'u' rest)

-- The four digits of a code, as they are written.
def digitsOf : List Char := [a.char, b.char, c.char, d.char]

theorem hexCode_digitsOf : hexCode (digitsOf a b c d ++ rest) = .ok (Glyph.codeOf a b c d, rest) :=
  hexCode_append (hexValue?_char a b c d) rest

theorem unicode_plain (htrailing : ¬Glyph.IsTrailing (Glyph.codeOf a b c d))
    (hleading : ¬Glyph.IsLeading (Glyph.codeOf a b c d)) :
    unicode.run? (digitsOf a b c d ++ rest) = some (Char.ofNat (Glyph.codeOf a b c d), rest) := by
  rw [unicode, run?_bind_of_ok _ (hexCode_digitsOf a b c d rest), if_neg htrailing, if_neg hleading,
    run?_pure]

theorem unicode_trailing (htrailing : Glyph.IsTrailing (Glyph.codeOf a b c d)) :
    unicode.run? (digitsOf a b c d ++ rest) = none := by
  rw [unicode, run?_bind_of_ok _ (hexCode_digitsOf a b c d rest), if_pos htrailing, run?_fail]

theorem pairMark_same (mark : Char) : pairMark mark (mark :: rest) = .ok ((), rest) := by
  rw [pairMark, bind_of_ok _ (peek_cons mark rest)]
  simp only [if_true]
  exact advance_cons mark rest

theorem pairMark_other {mark c : Char} (h : c ≠ mark) : (pairMark mark).run? (c :: rest) = none := by
  rw [pairMark, run?_bind_of_ok _ (peek_cons c rest)]
  simp only [h, if_false, run?_failPast]

-- Behind a leading surrogate only another code can make a character.
theorem unicode_leading (hleading : Glyph.IsLeading (Glyph.codeOf a b c d)) :
    unicode.run? (digitsOf a b c d ++ rest) =
      ((pairMark '\\').run? rest).bind fun first => ((pairMark 'u').run? first.2).bind fun second =>
        (hexCode.run? second.2).bind fun trailing =>
          if Glyph.IsTrailing trailing.1 then
            some (Glyph.paired (Glyph.codeOf a b c d) trailing.1, trailing.2)
          else none := by
  rw [unicode, run?_bind_of_ok _ (hexCode_digitsOf a b c d rest),
    if_neg (Glyph.not_trailing_of_leading hleading), if_pos hleading]
  simp only [run?_bind]
  congr 1
  funext first
  congr 1
  funext second
  congr 1
  funext trailing
  by_cases htrailing : Glyph.IsTrailing trailing.1
  · rw [if_pos htrailing, if_pos htrailing, run?_pure]
    rfl
  · rw [if_neg htrailing, if_neg htrailing, run?_fail]

end Code

theorem inside_cons (g : Glyph) (gs : List Glyph) : inside (g :: gs) = g.text ++ inside gs := rfl

-- No pair goes on with anything but a code.
theorem unicode_lone {a b c d : HexDigit} (hleading : Glyph.IsLeading (Glyph.codeOf a b c d))
    {gs : List Glyph} (hgs : ∀ x y z w rest, gs ≠ .code x y z w :: rest) (rest : List Char) :
    unicode.run? (digitsOf a b c d ++ (inside gs ++ '"' :: rest)) = none := by
  rw [unicode_leading a b c d _ hleading]
  cases gs with
  | nil =>
      rw [inside, List.flatMap_nil, List.nil_append, pairMark_other _ (by decide), Option.bind_none]
  | cons g gs =>
      rw [inside_cons]
      cases g with
      | raw c h =>
          simp only [Glyph.text, List.cons_append, pairMark_other _ h.2.1, Option.bind_none]
      | short mark c h =>
          have hmark : mark ≠ 'u' := by
            rintro rfl
            exact absurd (shortEscape?_of_mem h) (by simp [shortEscape?])
          simp only [Glyph.text, List.cons_append, run?_of_ok (pairMark_same _ _),
            Option.bind_some, pairMark_other _ hmark, Option.bind_none]
      | code x y z w => exact absurd rfl (hgs x y z w gs)

-- Behind a leading surrogate a code makes a pair if it is a trailing one.
theorem unicode_pair {a b c d x y z w : HexDigit} (gs : List Glyph) (behind : List Char)
    (hleading : Glyph.IsLeading (Glyph.codeOf a b c d)) :
    unicode.run? (digitsOf a b c d ++ (inside (.code x y z w :: gs) ++ behind)) =
      if Glyph.IsTrailing (Glyph.codeOf x y z w) then
        some (Glyph.paired (Glyph.codeOf a b c d) (Glyph.codeOf x y z w), inside gs ++ behind)
      else none := by
  have hcode := run?_of_ok (hexCode_digitsOf x y z w (inside gs ++ behind))
  have hmarks : inside (.code x y z w :: gs) ++ behind =
      '\\' :: 'u' :: (digitsOf x y z w ++ (inside gs ++ behind)) := rfl
  simp only [unicode_leading a b c d _ hleading, hmarks, run?_of_ok (pairMark_same _ _),
    Option.bind_some, hcode]

theorem characters_code (a b c d : HexDigit) (most : Nat) (taken behind : List Char) :
    (characters (most + 1) taken).run? ((Glyph.code a b c d).text ++ behind) =
      (unicode.run? (digitsOf a b c d ++ behind)).bind fun plain =>
        (characters most (plain.1 :: taken)).run? plain.2 := by
  rw [← escape_unicode]
  exact characters_escape most taken _

-- Characters are taken last one first.
theorem reversed_cons (c : Char) (taken rest : List Char) (outcome : Option (List Char)) :
    ((c :: ·) <$> outcome).map (fun cs => (cs.reverse ++ taken, rest)) =
      outcome.map fun cs => (cs.reverse ++ c :: taken, rest) := by
  cases outcome <;> simp

theorem length_lt_of_cons (g : Glyph) (gs : List Glyph) (most : Nat) :
    gs.length < (g :: gs).length + most := by
  rw [List.length_cons]
  omega

-- Behind the opening quote of a string its meaning is taken, and the closing quote.
theorem characters_glyphs (gs : List Glyph) {most : Nat} (hmost : gs.length < most)
    (taken rest : List Char) :
    (characters most taken).run? (inside gs ++ '"' :: rest) =
      (Glyph.meaning gs).map fun cs => (cs.reverse ++ taken, rest) := by
  induction gs using Glyph.meaning.induct generalizing most taken with
  | case1 =>
      obtain ⟨most, rfl⟩ := Nat.exists_eq_add_of_lt hmost
      have hend : characters (most + 1) taken ('"' :: rest) = .ok (taken, rest) := by
        rw [characters, bind_of_ok _ (peek_cons '"' rest)]
        exact bind_of_ok _ (advance_cons '"' rest)
      rw [List.length_nil, Nat.zero_add]
      exact run?_of_ok hend
  | case2 c h gs ih =>
      obtain ⟨most, rfl⟩ := Nat.exists_eq_add_of_lt hmost
      have hround := (spellsChar_raw h.1 h.2.1 h.2.2).takes
      rw [Glyph.meaning, reversed_cons, ← ih (length_lt_of_cons _ gs most), inside_cons,
        List.append_assoc, run?, Glyph.text, hround, run?]
  | case3 mark c h gs ih =>
      obtain ⟨most, rfl⟩ := Nat.exists_eq_add_of_lt hmost
      have hround := (spellsChar_short (shortEscape?_of_mem h)).takes
      rw [Glyph.meaning, reversed_cons, ← ih (length_lt_of_cons _ gs most), inside_cons,
        List.append_assoc, run?, Glyph.text, hround, run?]
  | case4 a b c d gs htrailing =>
      obtain ⟨most, rfl⟩ := Nat.exists_eq_add_of_lt hmost
      rw [Glyph.meaning_trailing htrailing, inside_cons, List.append_assoc, characters_code,
        unicode_trailing a b c d _ htrailing]
      rfl
  | case5 a b c d _ hleading x y z w gs hpair ih =>
      obtain ⟨most, rfl⟩ := Nat.exists_eq_add_of_lt hmost
      have hrest := Nat.lt_trans (length_lt_of_cons (.code x y z w) gs 0)
        (length_lt_of_cons (.code a b c d) (.code x y z w :: gs) most)
      rw [Glyph.meaning_pair hleading hpair, reversed_cons, ← ih hrest, inside_cons,
        List.append_assoc, characters_code, unicode_pair gs _ hleading, if_pos hpair,
        Option.bind_some]
  | case6 a b c d _ hleading x y z w gs hpair =>
      obtain ⟨most, rfl⟩ := Nat.exists_eq_add_of_lt hmost
      rw [Glyph.meaning_unpaired hleading hpair, inside_cons, List.append_assoc, characters_code,
        unicode_pair gs _ hleading, if_neg hpair]
      rfl
  | case7 a b c d gs _ hleading hgs =>
      obtain ⟨most, rfl⟩ := Nat.exists_eq_add_of_lt hmost
      rw [Glyph.meaning_lone hleading hgs, inside_cons, List.append_assoc, characters_code,
        unicode_lone hleading hgs]
      rfl
  | case8 a b c d gs htrailing hleading ih =>
      obtain ⟨most, rfl⟩ := Nat.exists_eq_add_of_lt hmost
      rw [Glyph.meaning_plain htrailing hleading, reversed_cons, ← ih (length_lt_of_cons _ gs most),
        inside_cons, List.append_assoc, characters_code,
        unicode_plain a b c d _ htrailing hleading, Option.bind_some]

theorem length_le_inside (gs : List Glyph) : gs.length ≤ (inside gs).length := by
  induction gs with
  | nil => exact Nat.le_refl 0
  | cons g gs ih =>
      have hpos : 0 < g.text.length := by cases g <;> exact Nat.succ_pos _
      rw [inside_cons, List.length_append, List.length_cons]
      omega

theorem length_lt_behind_quote (gs : List Glyph) (rest : List Char) :
    gs.length < (inside gs ++ '"' :: rest).length := by
  have hle := length_le_inside gs
  rw [List.length_append, List.length_cons]
  omega

theorem quotedText_append (gs : List Glyph) (rest : List Char) :
    quotedText gs ++ rest = '"' :: (inside gs ++ '"' :: rest) := by
  rw [quotedText, List.cons_append, List.append_assoc, List.singleton_append]

theorem settles_quotedString (gs : List Glyph) :
    Settles quotedString (quotedText gs) ((Glyph.meaning gs).map String.ofList) := by
  intro rest _
  rw [quotedText_append, quotedString, run?_bind_of_ok _ (advance_cons '"' _),
    run?_bind_of_ok _ (get_run _), run?_bind,
    characters_glyphs gs (length_lt_behind_quote gs rest) [] rest]
  cases Glyph.meaning gs with
  | none => rfl
  | some cs =>
      simp only [Option.map_some, Option.bind_some, run?_pure, List.append_nil,
        List.reverse_reverse]

-- Passing over a string checks its form alone.
theorem skipCharacters_glyphs (gs : List Glyph) {most : Nat} (hmost : gs.length < most)
    (rest : List Char) : skipCharacters most (inside gs ++ '"' :: rest) = .ok ((), rest) := by
  induction gs generalizing most with
  | nil =>
      obtain ⟨most, rfl⟩ := Nat.exists_eq_add_of_lt hmost
      rw [skipCharacters, inside, List.flatMap_nil, List.nil_append,
        bind_of_ok _ (peek_cons '"' rest)]
      exact advance_cons '"' rest
  | cons g gs ih =>
      obtain ⟨most, rfl⟩ := Nat.exists_eq_add_of_lt hmost
      have hrest := ih (length_lt_of_cons g gs most)
      rw [inside_cons, List.append_assoc, skipCharacters]
      cases g with
      | raw c h =>
          rw [Glyph.text, List.singleton_append, bind_of_ok _ (peek_cons c _)]
          simp only [h.1, h.2.1, h.2.2, if_false]
          exact (bind_of_ok _ (advance_cons c _)).trans hrest
      | short mark c h =>
          have hsome : (shortEscape? mark).isSome := by
            rw [shortEscape?_of_mem h, Option.isSome_some]
          rw [Glyph.text, List.cons_append, bind_of_ok _ (peek_cons '\\' _)]
          refine (bind_of_ok _ (advance_cons '\\' _)).trans
            ((bind_of_ok _ (peek_cons mark _)).trans ?_)
          simp only [hsome, if_true]
          exact (bind_of_ok _ (advance_cons mark _)).trans hrest
      | code a b c d =>
          rw [Glyph.text, List.cons_append, bind_of_ok _ (peek_cons '\\' _)]
          refine (bind_of_ok _ (advance_cons '\\' _)).trans
            ((bind_of_ok _ (peek_cons 'u' _)).trans ?_)
          have hcode := hexCode_digitsOf a b c d (inside gs ++ '"' :: rest)
          refine (bind_of_ok _ (advance_cons 'u' _)).trans ((bind_of_ok _ hcode).trans ?_)
          exact hrest

end Reader

end DashboardScript.Json
