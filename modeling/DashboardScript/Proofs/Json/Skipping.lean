import DashboardScript.Proofs.Json.Containers
import DashboardScript.Proofs.Json.Numerals

namespace DashboardScript.Json

open Grammar

namespace Bracket

def opening : Bracket → Char
  | .list => '['
  | .object => '\x7b'

end Bracket

namespace Reader

-- Goes on within the brackets that are still open, if there are any.
def resume (fuel : Nat) : Option (List Bracket) → Reader Unit
  | none => pure ()
  | some around => skipRounds fuel around

theorem skipRounds_succ (most : Nat) (around : List Bracket) :
    skipRounds (most + 1) around = skipStep around >>= resume most := by
  rw [skipRounds]
  rfl

theorem ignoresBlanks_skipRounds (most : Nat) (around : List Bracket) :
    IgnoresBlanks (skipRounds (most + 1) around) :=
  ignoresBlanks_peekToken.bind _ |>.bind _

-- The text is passed over in a number of rounds, and the brackets that close behind it with it. It
-- has a character for each round.
def Skips (text : List Char) : Prop :=
  ∃ n < text.length, ∀ around fuel rest, EndsNumber rest →
    skipRounds (fuel + n + 1) around (text ++ rest) = (skipClosings around >>= resume fuel) rest

theorem Skips.blanks {text : List Char} (h : Skips text) (pad : Blanks) :
    Skips (pad.val ++ text) := by
  obtain ⟨n, hn, hskips⟩ := h
  refine ⟨n, by rw [List.length_append]; omega, fun around fuel rest hrest => ?_⟩
  rw [List.append_assoc, ignoresBlanks_skipRounds _ around pad, hskips around fuel rest hrest]

theorem Skips.settles {text : List Char} (h : Skips text) : Settles skipValue text (some ()) := by
  obtain ⟨n, hn, hskips⟩ := h
  intro rest hrest
  obtain ⟨fuel, hfuel⟩ : ∃ fuel, (text ++ rest).length = fuel + n :=
    ⟨(text ++ rest).length - n, by rw [List.length_append]; omega⟩
  apply run?_of_ok
  rw [skipValue, bind_of_ok _ (get_run _), hfuel, hskips [] fuel rest hrest]
  rfl

section Scalars

variable (around : List Bracket) {rest : List Char}

-- A scalar takes one round.
theorem skips_scalar {text : List Char} (hne : text ≠ [])
    (h : ∀ around rest, EndsNumber rest →
      skipStep around (text ++ rest) = skipClosings around rest) :
    Skips text := by
  refine ⟨0, List.length_pos_of_ne_nil hne, fun around fuel rest hrest => ?_⟩
  rw [Nat.add_zero, skipRounds_succ]
  simp only [bind, StateT.bind, h around rest hrest]

theorem skipStep_word (letter : Char) (word : List Char)
    (hstep : skipStep around (letter :: (word ++ rest)) =
      (do advance; letters word; skipClosings around : Reader _) (letter :: (word ++ rest))) :
    skipStep around (letter :: (word ++ rest)) = skipClosings around rest :=
  hstep.trans
    ((bind_of_ok _ (advance_cons letter _)).trans (bind_of_ok _ (letters_append word rest)))

theorem skips_null : Skips ['n', 'u', 'l', 'l'] :=
  skips_scalar (by decide) fun around rest _ =>
    skipStep_word around 'n' ['u', 'l', 'l'] (bind_of_ok _ (peekToken_cons rfl _))

theorem skips_boolean (b : Bool) : Skips (if b then "true" else "false").toList := by
  cases b with
  | false =>
      exact skips_scalar (by decide) fun around rest _ =>
        skipStep_word around 'f' ['a', 'l', 's', 'e'] (bind_of_ok _ (peekToken_cons rfl _))
  | true =>
      exact skips_scalar (by decide) fun around rest _ =>
        skipStep_word around 't' ['r', 'u', 'e'] (bind_of_ok _ (peekToken_cons rfl _))

theorem skipString_quotedText (gs : List Glyph) (rest : List Char) :
    skipString (quotedText gs ++ rest) = .ok ((), rest) := by
  rw [quotedText_append, skipString, bind_of_ok _ (advance_cons '"' _), bind_of_ok _ (get_run _),
    skipCharacters_glyphs gs (length_lt_behind_quote gs rest)]

theorem skips_string (gs : List Glyph) : Skips (quotedText gs) := by
  refine skips_scalar (List.cons_ne_nil _ _) fun around rest _ => ?_
  have hstep : skipStep around (quotedText gs ++ rest) =
      (do skipString; skipClosings around : Reader _) (quotedText gs ++ rest) :=
    bind_of_ok _ (peekToken_cons rfl _)
  exact hstep.trans (bind_of_ok _ (skipString_quotedText gs rest))

theorem skips_number (n : Spelling) : Skips n.text := by
  obtain ⟨c, tail, htext, hc⟩ := text_begins n
  refine skips_scalar (by rw [htext]; exact List.cons_ne_nil c tail) fun around rest hrest => ?_
  have hstep : skipStep around (n.text ++ rest) =
      (do let _ ← numeral .invalidNumber; skipClosings around : Reader _) (n.text ++ rest) := by
    rw [htext, List.cons_append, skipStep,
      bind_of_ok _ (peekToken_cons (not_blank_of_numeral hc).1 _)]
    dsimp only
    split
    case h_7 => rw [if_pos (by simpa using hc)]
    all_goals simp at hc
  exact hstep.trans (bind_of_ok _ (numeral_spelling n _ hrest))

end Scalars

-- A piece between brackets, behind its first blanks. In front of its value stands what `skipKey`
-- passes over.
structure IsCore (bracket : Bracket) (core value : List Char) (after : Blanks) : Prop where
  begins : ∃ c tail, core = c :: tail ∧ isBlank c = false ∧ c ≠ bracket.closing
  length_le : value.length ≤ core.length
  key : ∀ (pad : Blanks) rest, ∃ lead : Blanks,
    skipKey bracket (pad.val ++ (core ++ rest)) =
      .ok ((), lead.val ++ (value ++ (after.val ++ rest)))
  skips : Skips value

def IsPiece (bracket : Bracket) (piece : List Char) : Prop :=
  ∃ (before after : Blanks) (core value : List Char),
    piece = before.val ++ core ∧ IsCore bracket core value after

section Pieces

variable {bracket : Bracket}

theorem endsNumber_closing (bracket : Bracket) (pieces : List (List Char)) (rest : List Char) :
    EndsNumber (separated false pieces ++ bracket.closing :: rest) := by
  apply endsNumber_separated
  cases bracket with
  | list => exact .inl rfl
  | object => exact .inr rfl

-- A reader that is followed by another one may be replaced where it gives the same.
theorem bind_congr_run {α β : Type} {first second : Reader α} {text behind : List Char}
    (h : first text = second behind) (f : α → Reader β) :
    (first >>= f) text = (second >>= f) behind := by
  simp only [bind, StateT.bind, h]

theorem skipClosings_comma (around : List Bracket) (f : Option (List Bracket) → Reader Unit)
    (text : List Char) :
    (skipClosings (bracket :: around) >>= f) (',' :: text) =
      (do skipKey bracket; f (some (bracket :: around)) : Reader Unit) text := by
  have hcomma : skipClosings (bracket :: around) (',' :: text) =
      (do skipKey bracket; pure (some (bracket :: around)) : Reader _) text :=
    (bind_of_ok _ (peekToken_cons rfl _)).trans (bind_of_ok _ (advance_cons ',' text))
  rw [bind_congr_run hcomma, bind_assoc]
  simp only [pure_bind]

theorem skipClosings_closing (around : List Bracket) (text : List Char) :
    skipClosings (bracket :: around) (bracket.closing :: text) = skipClosings around text := by
  cases bracket <;>
    exact (bind_of_ok _ (peekToken_cons rfl _)).trans (bind_of_ok _ (advance_cons _ text))

-- From the key of a piece on, its value is passed over and what follows the value is looked at.
theorem resume_core {core value : List Char} {after : Blanks} (h : IsCore bracket core value after) :
    ∃ k < core.length, ∀ (pad : Blanks) around fuel (pieces : List (List Char)) rest,
      (do skipKey bracket; resume (fuel + k + 1) (some around) : Reader Unit)
          (pad.val ++ (core ++ (separated false pieces ++ bracket.closing :: rest))) =
        (skipClosings around >>= resume fuel)
          (after.val ++ (separated false pieces ++ bracket.closing :: rest)) := by
  obtain ⟨k, hk, hskips⟩ := h.skips
  refine ⟨k, Nat.lt_of_lt_of_le hk h.length_le, fun pad around fuel pieces rest => ?_⟩
  obtain ⟨lead, hlead⟩ := h.key pad (separated false pieces ++ bracket.closing :: rest)
  have hends := endsNumber_blanks after (endsNumber_closing bracket pieces rest)
  rw [bind_of_ok _ hlead, resume, ignoresBlanks_skipRounds _ _ lead, hskips _ _ _ hends]

-- Behind a value, the pieces that are left are passed over and then their bracket is closed.
theorem skips_separated {pieces : List (List Char)} (h : ∀ piece ∈ pieces, IsPiece bracket piece) :
    ∃ n ≤ (separated false pieces).length, ∀ (pad : Blanks) around fuel rest,
      (skipClosings (bracket :: around) >>= resume (fuel + n))
          (pad.val ++ (separated false pieces ++ bracket.closing :: rest)) =
        (skipClosings around >>= resume fuel) rest := by
  have hpad : ∀ around, IgnoresBlanks (skipClosings (bracket :: around)) :=
    fun around => ignoresBlanks_peekToken.bind _
  induction pieces with
  | nil =>
      refine ⟨0, Nat.zero_le _, fun pad around fuel rest => ?_⟩
      rw [(hpad around).bind _ pad]
      simp only [separated, List.nil_append, bind, StateT.bind, skipClosings_closing, Nat.add_zero]
  | cons piece pieces ih =>
      obtain ⟨n, hn, hrest⟩ := ih fun p hp => h p (List.mem_cons_of_mem _ hp)
      obtain ⟨before, after, core, value, rfl, hcore⟩ := h piece List.mem_cons_self
      obtain ⟨k, hk, hresume⟩ := resume_core hcore
      refine ⟨n + (k + 1), ?_, fun pad around fuel rest => ?_⟩
      · simp only [separated, Bool.false_eq_true, if_false, List.length_append,
          List.length_singleton]
        omega
      · rw [(hpad around).bind _ pad, ← hrest after around fuel rest,
          ← hresume before (bracket :: around) (fuel + n) pieces rest]
        simp only [separated, Bool.false_eq_true, if_false, List.nil_append, List.cons_append,
          List.append_assoc]
        rw [skipClosings_comma, ← Nat.add_assoc, ← Nat.add_assoc]

-- The brackets around a value and what is between them.
def enclosed (bracket : Bracket) (pad : Blanks) (pieces : List (List Char)) : List Char :=
  bracket.opening :: (pad.val ++ (separated true pieces ++ [bracket.closing]))

theorem skipStep_opening (around : List Bracket) (text : List Char) :
    skipStep around (bracket.opening :: text) =
      skipOpening bracket around (bracket.opening :: text) := by
  cases bracket <;> exact bind_of_ok _ (peekToken_cons rfl _)

theorem skipOpening_closing (around : List Bracket) (pad : Blanks) (text : List Char) :
    skipOpening bracket around (bracket.opening :: (pad.val ++ bracket.closing :: text)) =
      skipClosings around text := by
  have hclosing : peekToken (pad.val ++ bracket.closing :: text) =
      .ok (some bracket.closing, bracket.closing :: text) :=
    (ignoresBlanks_peekToken pad _).trans (by cases bracket <;> exact peekToken_cons rfl _)
  rw [skipOpening, bind_of_ok _ (advance_cons _ _), bind_of_ok _ hclosing]
  simp only [if_true]
  exact bind_of_ok _ (advance_cons _ text)

theorem skipOpening_piece (around : List Bracket) (pad before : Blanks) {c : Char}
    (hblank : isBlank c = false) (hc : c ≠ bracket.closing) (text : List Char) :
    skipOpening bracket around (bracket.opening :: (pad.val ++ (before.val ++ c :: text))) =
      (do skipKey bracket; pure (some (bracket :: around)) : Reader _) (c :: text) := by
  have hpeek : peekToken (pad.val ++ (before.val ++ c :: text)) = .ok (some c, c :: text) :=
    (ignoresBlanks_peekToken pad _).trans
      ((ignoresBlanks_peekToken before _).trans (peekToken_cons hblank text))
  rw [skipOpening, bind_of_ok _ (advance_cons _ _), bind_of_ok _ hpeek]
  simp only [hc, if_false]

theorem skips_enclosed (bracket : Bracket) (pad : Blanks) {pieces : List (List Char)}
    (h : ∀ piece ∈ pieces, IsPiece bracket piece) : Skips (enclosed bracket pad pieces) := by
  cases pieces with
  | nil =>
      refine skips_scalar (List.cons_ne_nil _ _) fun around rest _ => ?_
      simp only [enclosed, separated, List.nil_append, List.cons_append, List.append_assoc]
      rw [skipStep_opening, skipOpening_closing]
  | cons piece pieces =>
      obtain ⟨n, hn, hrest⟩ := skips_separated fun p hp => h p (List.mem_cons_of_mem _ hp)
      obtain ⟨before, after, core, value, rfl, hcore⟩ := h piece List.mem_cons_self
      obtain ⟨k, hk, hresume⟩ := resume_core hcore
      obtain ⟨c, tail, rfl, hblank, hc⟩ := hcore.begins
      refine ⟨n + (k + 1), ?_, fun around fuel rest _ => ?_⟩
      · simp only [enclosed, separated, if_true, List.length_append, List.length_cons,
          List.length_nil] at hk ⊢
        omega
      · have hpiece := skipOpening_piece around pad before hblank hc
          (tail ++ (separated false pieces ++ bracket.closing :: rest))
        have hcore := hresume ⟨[], by simp⟩ (bracket :: around) (fuel + n) pieces rest
        rw [skipRounds_succ, ← hrest after around fuel rest, ← hcore]
        simp only [enclosed, separated, if_true, List.nil_append, List.cons_append,
          List.append_assoc]
        rw [bind_congr_run (skipStep_opening around _), bind_congr_run hpiece, bind_assoc]
        simp only [pure_bind, Nat.add_assoc]

end Pieces

theorem isPiece_item {i : ItemText} (hbegins : Begins i.value) (hskips : Skips i.value) :
    IsPiece .list i.text := by
  refine ⟨i.before, i.after, i.value ++ i.after.val, i.value, rfl, ?_⟩
  constructor
  case begins =>
    obtain ⟨c, tail, hvalue, hblank, hc⟩ := hbegins
    exact ⟨c, _, by rw [hvalue, List.cons_append], hblank, hc⟩
  case length_le =>
    rw [List.length_append]
    omega
  case key => exact fun pad rest => ⟨pad, by rw [List.append_assoc]; rfl⟩
  case skips => exact hskips

theorem isPiece_member {m : MemberText} (hskips : Skips m.value) : IsPiece .object m.text := by
  refine ⟨m.before, m.after, quotedText m.key ++ (m.fromColon ++ m.after.val), m.value, rfl, ?_⟩
  constructor
  case begins => exact ⟨'"', _, rfl, by decide, by decide⟩
  case length_le =>
    simp only [MemberText.fromColon, List.length_append, List.length_cons]
    omega
  case key =>
    intro pad rest
    have hpeek :
        peekToken (pad.val ++ (quotedText m.key ++ (m.fromColon ++ (m.after.val ++ rest)))) =
        .ok (some '"', quotedText m.key ++ (m.fromColon ++ (m.after.val ++ rest))) :=
      (ignoresBlanks_peekToken pad _).trans (peekToken_cons rfl _)
    have hgap : IgnoresBlanks colon := ignoresBlanks_peekToken.bind _
    refine ⟨m.lead, ?_⟩
    rw [List.append_assoc, List.append_assoc, skipKey, bind_of_ok _ hpeek]
    simp only [if_true]
    rw [bind_of_ok _ (skipString_quotedText m.key _), MemberText.fromColon, List.append_assoc,
      List.cons_append, hgap, colon_run, List.append_assoc]
  case skips => exact hskips

end Reader

namespace Grammar

open Reader

theorem IsValue.begins {depth : Nat} {text : List Char} (h : IsValue depth text) : Begins text := by
  cases h with
  | null => exact ⟨'n', _, rfl, rfl, by decide⟩
  | boolean _ b => cases b <;> exact ⟨_, _, rfl, rfl, by decide⟩
  | number _ n =>
      obtain ⟨c, tail, htext, hc⟩ := text_begins n
      exact ⟨c, tail, htext, (not_blank_of_numeral hc).1, (not_blank_of_numeral hc).2.1⟩
  | string => exact ⟨'"', _, rfl, rfl, by decide⟩
  | array => exact ⟨'[', _, rfl, rfl, by decide⟩
  | object => exact ⟨'\x7b', _, rfl, rfl, by decide⟩

-- A value of any shape is passed over.
theorem IsValue.skips {depth : Nat} {text : List Char} (h : IsValue depth text) : Skips text := by
  induction h with
  | null => exact skips_null
  | boolean _ b => exact skips_boolean b
  | number _ n => exact skips_number n
  | string _ gs => exact skips_string gs
  | array pad hitems ih =>
      refine skips_enclosed .list pad fun piece hpiece => ?_
      obtain ⟨i, hi, rfl⟩ := List.mem_map.mp hpiece
      exact isPiece_item (hitems i hi).begins (ih i hi)
  | object pad hmembers ih =>
      refine skips_enclosed .object pad fun piece hpiece => ?_
      obtain ⟨m, hm, rfl⟩ := List.mem_map.mp hpiece
      exact isPiece_member (ih m hm)

end Grammar

end DashboardScript.Json
