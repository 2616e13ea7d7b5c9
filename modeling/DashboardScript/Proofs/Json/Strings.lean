import DashboardScript.Proofs.Json.Reading
import Mathlib.Data.List.Forall2

namespace DashboardScript.Json

namespace Reader

-- One round inside of a string takes the spelling for the character.
structure SpellsChar (spelling : List Char) (c : Char) : Prop where
  nonempty : spelling ≠ []
  takes : ∀ most taken rest,
    characters (most + 1) taken (spelling ++ rest) = characters most (c :: taken) rest

theorem spellsChar_raw {c : Char} (hquote : c ≠ '"') (hslash : c ≠ '\\') (hcontrol : ¬c < ' ') :
    SpellsChar [c] c := by
  refine ⟨by simp, fun most taken rest => ?_⟩
  rw [characters, List.singleton_append, bind_of_ok _ (peek_cons c rest)]
  simp only [hquote, hslash, hcontrol, if_false]
  exact bind_of_ok _ (advance_cons c rest)

-- Behind a backslash, the round goes on with what the escape stands for.
theorem spellsChar_escape {spelling : List Char} {c : Char}
    (h : ∀ rest, escape (spelling ++ rest) = .ok (c, rest)) : SpellsChar ('\\' :: spelling) c := by
  refine ⟨by simp, fun most taken rest => ?_⟩
  rw [characters, List.cons_append, bind_of_ok _ (peek_cons _ _)]
  have hround := bind_of_ok (fun plain => characters most (plain :: taken)) (h rest)
  exact (bind_of_ok _ (advance_cons '\\' _)).trans hround

theorem spellsChar_short {mark c : Char} (h : shortEscape? mark = some c) :
    SpellsChar ['\\', mark] c := by
  refine spellsChar_escape fun rest => ?_
  rw [escape, List.singleton_append, bind_of_ok _ (peek_cons mark rest)]
  simp only [h]
  exact bind_of_ok _ (advance_cons mark rest)

theorem hexCode_append {a b c d : Char} {code : Nat} (h : hexValue? a b c d = some code)
    (rest : List Char) : hexCode (a :: b :: c :: d :: rest) = .ok (code, rest) := by
  simp only [hexCode, h]

theorem spellsChar_unicode {a b c d : Char} {code : Nat} (h : hexValue? a b c d = some code)
    (hbelow : code < 0xd800) : SpellsChar ['\\', 'u', a, b, c, d] (Char.ofNat code) := by
  refine spellsChar_escape fun rest => ?_
  have hmark : shortEscape? 'u' = none := rfl
  have hunicode : unicode (a :: b :: c :: d :: rest) = .ok (Char.ofNat code, rest) := by
    rw [unicode, bind_of_ok _ (hexCode_append h rest), if_neg (by omega), if_neg (by omega)]
    rfl
  rw [escape, List.cons_append, bind_of_ok _ (peek_cons 'u' _)]
  simp only [hmark, if_true]
  exact (bind_of_ok _ (advance_cons 'u' _)).trans hunicode

-- A control has two digits that are not zero at most.
theorem controlEscape_digits : ∀ n < 32,
    (controlEscape (Char.ofNat n)).toList =
        ['\\', 'u', '0', '0', (n / 16).digitChar, (n % 16).digitChar] ∧
      hexValue? '0' '0' (n / 16).digitChar (n % 16).digitChar = some n := by
  decide

theorem spellsChar_control {c : Char} (h : c < ' ') : SpellsChar (controlEscape c).toList c := by
  have hlt : c.toNat < 32 := h
  obtain ⟨htext, hvalue⟩ := controlEscape_digits c.toNat hlt
  have hspells := spellsChar_unicode hvalue (by omega)
  rw [Char.ofNat_toNat] at htext hspells
  rw [htext]
  exact hspells

theorem spellsChar_escaped (c : Char) : SpellsChar (escaped c).toList c := by
  unfold escaped
  split
  case h_8 hquote hslash _ _ _ _ _ =>
    by_cases hcontrol : c < ' '
    · rw [if_pos hcontrol]
      exact spellsChar_control hcontrol
    · rw [if_neg hcontrol, Char.toString_eq_singleton, String.toList_singleton]
      exact spellsChar_raw hquote hslash hcontrol
  all_goals exact spellsChar_short rfl

-- A string takes one round for each of its characters, and a last one for its closing quote.
theorem characters_spellings {spellings : List (List Char)} {cs : List Char}
    (h : List.Forall₂ SpellsChar spellings cs) {most : Nat} (hmost : cs.length < most)
    (taken rest : List Char) :
    characters most taken (spellings.flatten ++ '"' :: rest) = .ok (cs.reverse ++ taken, rest) := by
  induction h generalizing most taken with
  | nil =>
      obtain ⟨spare, rfl⟩ := Nat.exists_eq_add_of_lt hmost
      rw [characters, List.flatten_nil, List.nil_append, bind_of_ok _ (peek_cons '"' rest)]
      exact bind_of_ok _ (advance_cons '"' rest)
  | cons hspelling htail ih =>
      rw [List.length_cons] at hmost
      obtain ⟨spare, rfl⟩ := Nat.exists_eq_add_of_lt hmost
      rw [List.flatten_cons, List.append_assoc, hspelling.takes, ih (by omega)]
      simp

theorem length_le_of_spellings {spellings : List (List Char)} {cs : List Char}
    (h : List.Forall₂ SpellsChar spellings cs) : cs.length ≤ spellings.flatten.length := by
  induction h with
  | nil => exact Nat.le_refl 0
  | cons hspelling htail ih =>
      have hpos := List.length_pos_of_ne_nil hspelling.nonempty
      rw [List.flatten_cons, List.length_append, List.length_cons]
      omega

-- However its characters are spelled, a string is read back.
theorem quotedString_spellings {spellings : List (List Char)} {s : String}
    (h : List.Forall₂ SpellsChar spellings s.toList) (rest : List Char) :
    quotedString ('"' :: (spellings.flatten ++ '"' :: rest)) = .ok (s, rest) := by
  have hlength := length_le_of_spellings h
  have hmost : s.toList.length < (spellings.flatten ++ '"' :: rest).length := by
    rw [List.length_append, List.length_cons]
    omega
  have htaken := characters_spellings h hmost [] rest
  rw [quotedString, bind_of_ok _ (advance_cons '"' _), bind_of_ok _ (get_run _),
    bind_of_ok _ htaken, pure_run, List.append_nil, List.reverse_reverse, String.ofList_toList]

theorem toList_stringText (s : String) :
    (stringText s).toList =
      '"' :: ((s.toList.map fun c => (escaped c).toList).flatten ++ ['"']) := by
  have hquote : "\"".toList = ['"'] := rfl
  simp only [stringText, String.toList_append, String.toList_join, hquote,
    List.flatMap_def, List.map_map, Function.comp_def, List.cons_append, List.nil_append]

theorem quotedString_stringText (s : String) (rest : List Char) :
    quotedString ((stringText s).toList ++ rest) = .ok (s, rest) := by
  have h : List.Forall₂ SpellsChar (s.toList.map fun c => (escaped c).toList) s.toList := by
    rw [List.forall₂_map_left_iff, List.forall₂_same]
    exact fun c _ => spellsChar_escaped c
  rw [toList_stringText, List.cons_append, List.append_assoc]
  exact quotedString_spellings h rest

end Reader

end DashboardScript.Json
