import DashboardScript.Proofs.Json.Locality
import DashboardScript.Proofs.Json.Portions

namespace DashboardScript.Json

open Grammar

namespace Reader

variable {α β σ : Type}

section Lasting

variable {reader : Reader α} {f : α → Reader β} {text rest : List Char}

theorem not_endsEarly_of_ok {a : α} (h : reader text = .ok (a, rest)) : ¬EndsEarly reader text :=
  fun hends => hends.not_ok h

theorem not_endsEarly_of_run? {taken : α × List Char} (h : reader.run? text = some taken) :
    ¬EndsEarly reader text := by
  rintro ⟨failure, inside, hrun, -⟩
  rw [run?, hrun] at h
  cases h

theorem endsEarly_bind_iff {a : α} (f : α → Reader β) (h : reader text = .ok (a, rest)) :
    EndsEarly (reader >>= f) text ↔ EndsEarly (f a) rest := by
  unfold EndsEarly
  rw [bind_of_ok f h]

theorem not_endsEarly_bind (h : ¬EndsEarly reader text)
    (hf : ∀ a rest, reader text = .ok (a, rest) → ¬EndsEarly (f a) rest) :
    ¬EndsEarly (reader >>= f) text := by
  cases hrun : reader text with
  | ok taken => rw [endsEarly_bind_iff f hrun]; exact hf taken.1 taken.2 hrun
  | error failure =>
      rintro ⟨_, inside, hbind, hcause⟩
      simp only [bind, StateT.bind, hrun, Except.bind, Except.error.injEq] at hbind
      exact h ⟨failure, inside, hrun, hbind ▸ hcause⟩

theorem not_endsEarly_map (h : ¬EndsEarly reader text) (g : α → β) :
    ¬EndsEarly (g <$> reader) text := by
  rw [← bind_pure_comp]
  exact not_endsEarly_bind h fun _ _ _ => not_endsEarly_of_ok rfl

theorem not_endsEarly_of_cause {failure : Failure} (hrun : reader text = .error failure)
    (hcause : failure.cause.category ≠ .truncated) : ¬EndsEarly reader text := by
  rintro ⟨other, inside, hother, hended⟩
  obtain rfl := Except.error.inj (hrun.symm.trans hother)
  exact hcause (by rw [hended]; rfl)

section Cause

variable {cause : Cause} (hcause : cause.category ≠ .truncated) (text : List Char)

include hcause

theorem not_endsEarly_fail : ¬EndsEarly (fail cause : Reader α) text :=
  not_endsEarly_of_cause rfl hcause

theorem not_endsEarly_failNext : ¬EndsEarly (failNext cause : Reader α) text :=
  not_endsEarly_of_cause rfl hcause

theorem not_endsEarly_failPast (count : Nat) : ¬EndsEarly (failPast count cause : Reader α) text :=
  not_endsEarly_of_cause rfl hcause

end Cause

section Schematic

variable {cause : Cause} (hcause : cause.category = .schematic)

include hcause

theorem not_truncated_of_schematic : cause.category ≠ .truncated := by
  rw [hcause]
  decide

theorem not_endsEarly_failList (text : List Char) :
    ¬EndsEarly (failList cause : Reader α) text := by
  have hfail := not_endsEarly_fail (α := α) (not_truncated_of_schematic hcause)
  refine not_endsEarly_bind (not_endsEarly_of_ok rfl) fun c rest _ => ?_
  dsimp only
  split
  · exact not_endsEarly_bind (not_endsEarly_of_ok rfl) fun _ rest _ => hfail rest
  · split
    · refine not_endsEarly_bind (not_endsEarly_of_ok rfl) fun _ _ _ => ?_
      exact not_endsEarly_bind (not_endsEarly_of_ok rfl) fun _ rest _ => hfail rest
    · exact hfail rest

theorem not_endsEarly_failObject (text : List Char) :
    ¬EndsEarly (failObject cause : Reader α) text := by
  have hfail := not_endsEarly_fail (α := α) (not_truncated_of_schematic hcause)
  refine not_endsEarly_bind (not_endsEarly_of_ok rfl) fun c rest _ => ?_
  dsimp only
  split
  · exact not_endsEarly_bind (not_endsEarly_of_ok rfl) fun _ rest _ => hfail rest
  · exact hfail rest

end Schematic

theorem eq_of_run?_eq_map {outcome : Option α} {behind : List Char} {a : α}
    (hrun : reader text = .ok (a, behind)) (h : reader.run? text = outcome.map (·, rest)) :
    a ∈ outcome ∧ behind = rest := by
  rw [run?_of_ok hrun, eq_comm, Option.map_eq_some_iff] at h
  obtain ⟨b, hb, htaken⟩ := h
  obtain ⟨rfl, rfl⟩ := Prod.mk.inj htaken
  exact ⟨hb, rfl⟩

-- Where a reader settles a text and does not run out of it, what is done with the outcome counts.
theorem Settles.not_endsEarly_bind {outcome : Option α} (h : Settles reader text outcome)
    (hrest : EndsNumber rest) (hreader : ¬EndsEarly reader (text ++ rest))
    (hf : ∀ a ∈ outcome, ¬EndsEarly (f a) rest) : ¬EndsEarly (reader >>= f) (text ++ rest) := by
  refine Reader.not_endsEarly_bind hreader fun a behind hrun => ?_
  obtain ⟨ha, rfl⟩ := eq_of_run?_eq_map hrun (h rest hrest)
  exact hf a ha

end Lasting

-- There is enough of the text for the reader to take it or to refuse it, whatever comes behind.
def Suffices (reader : Reader α) (text : List Char) : Prop :=
  ∀ rest, EndsNumber rest → ¬EndsEarly reader (text ++ rest)

theorem Suffices.blanks {reader : Reader α} {text : List Char} (h : Suffices reader text)
    (hblanks : IgnoresBlanks reader) (pad : Blanks) : Suffices reader (pad.val ++ text) := by
  intro rest hrest hends
  rw [List.append_assoc] at hends
  exact h rest hrest (endsEarly_of_eq (hblanks pad _).symm hends)

theorem Suffices.map {reader : Reader α} {text : List Char} (h : Suffices reader text) (f : α → β) :
    Suffices (f <$> reader) text :=
  fun rest hrest => not_endsEarly_map (h rest hrest) f

theorem Settles.suffices {reader : Reader α} {text : List Char} {a : α}
    (h : Settles reader text (some a)) : Suffices reader text :=
  fun rest hrest => not_endsEarly_of_run? (h rest hrest)

section Strings

variable {a b c d : HexDigit}

theorem pairMark_suffices (mark c : Char) (rest : List Char) :
    ¬EndsEarly (pairMark mark) (c :: rest) := by
  rw [pairMark, endsEarly_bind_iff _ (peek_cons c rest)]
  dsimp only
  split
  · exact not_endsEarly_of_ok rfl
  · exact not_endsEarly_failPast (by decide) _ 1

theorem eq_of_pairMark_ok {mark c : Char} {rest behind : List Char} {u : Unit}
    (h : pairMark mark (c :: rest) = .ok (u, behind)) : c = mark ∧ behind = rest := by
  by_cases hc : c = mark
  · subst hc
    rw [pairMark_same] at h
    exact ⟨rfl, (Prod.mk.inj (Except.ok.inj h)).2.symm⟩
  · exact absurd h (not_ok_of_run? (pairMark_other rest hc))

-- Behind a leading surrogate comes at least the closing quote, and behind the marks of a code its
-- digits.
theorem trailing_suffices {f : Nat → Reader α} (hf : ∀ code rest, ¬EndsEarly (f code) rest)
    (gs : List Glyph) (rest : List Char) :
    ¬EndsEarly (do
      pairMark '\\'
      pairMark 'u'
      let code ← hexCode
      f code) (inside gs ++ '"' :: rest) := by
  cases gs with
  | nil =>
      refine not_endsEarly_bind (pairMark_suffices _ _ _) fun _ _ hmark => ?_
      exact absurd (eq_of_pairMark_ok hmark).1 (by decide)
  | cons g gs =>
      rw [inside_cons, List.append_assoc]
      cases g with
      | raw c h =>
          refine not_endsEarly_bind (pairMark_suffices _ _ _) fun _ _ hmark => ?_
          exact absurd (eq_of_pairMark_ok hmark).1 h.2.1
      | short mark c h =>
          refine not_endsEarly_bind (pairMark_suffices _ _ _) fun _ _ hslash => ?_
          obtain ⟨-, rfl⟩ := eq_of_pairMark_ok hslash
          refine not_endsEarly_bind (pairMark_suffices _ _ _) fun _ _ hmark => ?_
          obtain ⟨rfl, -⟩ := eq_of_pairMark_ok hmark
          exact absurd (shortEscape?_of_mem h) (by simp [shortEscape?])
      | code x y z w =>
          refine not_endsEarly_bind (pairMark_suffices _ _ _) fun _ _ hslash => ?_
          obtain ⟨-, rfl⟩ := eq_of_pairMark_ok hslash
          refine not_endsEarly_bind (pairMark_suffices _ _ _) fun _ _ hmark => ?_
          obtain ⟨-, rfl⟩ := eq_of_pairMark_ok hmark
          exact (endsEarly_bind_iff f (hexCode_digitsOf x y z w _)).not.mpr (hf _ _)

theorem unicode_suffices (gs : List Glyph) (rest : List Char) :
    ¬EndsEarly unicode (digitsOf a b c d ++ (inside gs ++ '"' :: rest)) := by
  rw [unicode, endsEarly_bind_iff _ (hexCode_digitsOf a b c d _)]
  split
  · exact not_endsEarly_fail (by decide) _
  · split
    · refine trailing_suffices (fun trailing rest => ?_) gs rest
      split
      · exact not_endsEarly_of_ok rfl
      · exact not_endsEarly_fail (by decide) _
    · exact not_endsEarly_of_ok rfl

theorem characters_code_run (a b c d : HexDigit) (most : Nat) (taken behind : List Char) :
    characters (most + 1) taken ((Glyph.code a b c d).text ++ behind) =
      (do let plain ← unicode; characters most (plain :: taken) : Reader _)
        (digitsOf a b c d ++ behind) := by
  have hescape : escape ('u' :: (digitsOf a b c d ++ behind)) =
      unicode (digitsOf a b c d ++ behind) := by
    rw [escape, bind_of_ok _ (peek_cons _ _)]
    exact bind_of_ok _ (advance_cons 'u' _)
  refine (bind_of_ok _ (peek_cons '\\' _)).trans ((bind_of_ok _ (advance_cons '\\' _)).trans ?_)
  exact bind_congr_run hescape _

-- A string is taken or refused within its quotes.
theorem characters_suffice (gs : List Glyph) {most : Nat} (hmost : gs.length < most)
    (taken rest : List Char) : ¬EndsEarly (characters most taken) (inside gs ++ '"' :: rest) := by
  -- a code leaves what is behind it, or behind the pair that it begins
  have hcode : ∀ {a b c d most taken} (gs : List Glyph),
      (∀ plain behind, unicode.run? (digitsOf a b c d ++ (inside gs ++ '"' :: rest)) =
        some (plain, behind) → ¬EndsEarly (characters most (plain :: taken)) behind) →
      ¬EndsEarly (characters (most + 1) taken) (inside (.code a b c d :: gs) ++ '"' :: rest) := by
    intro a b c d most taken gs h hends
    rw [inside_cons, List.append_assoc] at hends
    refine not_endsEarly_bind (unicode_suffices gs rest) (fun plain behind hrun => ?_)
      (endsEarly_of_eq (characters_code_run a b c d most taken _).symm hends)
    exact h plain behind (run?_of_ok hrun)
  induction gs using Glyph.meaning.induct generalizing most taken with
  | case1 => exact not_endsEarly_of_run? (characters_glyphs [] hmost taken rest)
  | case2 c h gs ih =>
      obtain ⟨most, rfl⟩ := Nat.exists_eq_add_of_lt hmost
      have hround := (spellsChar_raw h.1 h.2.1 h.2.2).takes
      rw [inside_cons, List.append_assoc]
      intro hends
      exact ih (length_lt_of_cons _ gs most) _ (endsEarly_of_eq (hround _ _ _).symm hends)
  | case3 mark c h gs ih =>
      obtain ⟨most, rfl⟩ := Nat.exists_eq_add_of_lt hmost
      have hround := (spellsChar_short (shortEscape?_of_mem h)).takes
      rw [inside_cons, List.append_assoc]
      intro hends
      exact ih (length_lt_of_cons _ gs most) _ (endsEarly_of_eq (hround _ _ _).symm hends)
  | case4 a b c d gs htrailing =>
      obtain ⟨most, rfl⟩ := Nat.exists_eq_add_of_lt hmost
      refine hcode gs fun plain behind hrun => ?_
      rw [unicode_trailing a b c d _ htrailing] at hrun
      cases hrun
  | case5 a b c d _ hleading x y z w gs hpair ih =>
      obtain ⟨most, rfl⟩ := Nat.exists_eq_add_of_lt hmost
      refine hcode _ fun plain behind hrun => ?_
      rw [unicode_pair gs _ hleading, if_pos hpair] at hrun
      obtain ⟨rfl, rfl⟩ := Prod.mk.inj (Option.some.inj hrun)
      exact ih (Nat.lt_trans (length_lt_of_cons (.code x y z w) gs 0)
        (length_lt_of_cons (.code a b c d) (.code x y z w :: gs) most)) _
  | case6 a b c d _ hleading x y z w gs hpair =>
      obtain ⟨most, rfl⟩ := Nat.exists_eq_add_of_lt hmost
      refine hcode _ fun plain behind hrun => ?_
      rw [unicode_pair gs _ hleading, if_neg hpair] at hrun
      cases hrun
  | case7 a b c d gs _ hleading hgs =>
      obtain ⟨most, rfl⟩ := Nat.exists_eq_add_of_lt hmost
      refine hcode gs fun plain behind hrun => ?_
      rw [unicode_lone hleading hgs] at hrun
      cases hrun
  | case8 a b c d gs htrailing hleading ih =>
      obtain ⟨most, rfl⟩ := Nat.exists_eq_add_of_lt hmost
      refine hcode gs fun plain behind hrun => ?_
      rw [unicode_plain a b c d _ htrailing hleading] at hrun
      obtain ⟨rfl, rfl⟩ := Prod.mk.inj (Option.some.inj hrun)
      exact ih (length_lt_of_cons _ gs most) _

theorem quotedString_suffices (gs : List Glyph) : Suffices quotedString (quotedText gs) := by
  intro rest _
  rw [quotedText_append, quotedString, endsEarly_bind_iff _ (advance_cons '"' _),
    endsEarly_bind_iff _ (get_run _)]
  refine not_endsEarly_bind (characters_suffice gs (length_lt_behind_quote gs rest) [] rest) ?_
  exact fun _ _ _ => not_endsEarly_of_ok rfl

end Strings

section Next

variable {depth : Nat} {text : List Char}

theorem number_suffices (n : Spelling) : Suffices number n.text := by
  intro rest hrest
  rw [number, endsEarly_bind_iff _ (numeral_spelling n _ hrest)]
  cases n.numeral.value? with
  | some value => exact not_endsEarly_of_ok rfl
  | none =>
      have hcause : Cause.numberOutOfRange.category ≠ .truncated := by decide
      exact not_endsEarly_of_cause rfl hcause

-- A value suffices for its scalar to be read, or for its bracket to be seen.
theorem next_suffices (h : IsValue depth text) : Suffices next text := by
  cases h with
  | null => exact fun rest _ => not_endsEarly_of_ok (next_null rest)
  | boolean _ b => exact fun rest _ => not_endsEarly_of_ok (next_boolean rest b)
  | number _ n =>
      intro rest hrest hends
      obtain ⟨c, tail, htext, hc⟩ := text_begins n
      have heq : next (n.text ++ rest) = (Found.number <$> number) (n.text ++ rest) := by
        rw [htext, List.cons_append, next_numeral _ hc]
      exact (number_suffices n).map _ rest hrest (endsEarly_of_eq heq.symm hends)
  | string _ gs =>
      intro rest hrest hends
      exact (quotedString_suffices gs).map _ rest hrest (endsEarly_of_eq (next_quote _).symm hends)
  | array => exact fun rest _ => not_endsEarly_of_ok (next_bracket _)
  | object => exact fun rest _ => not_endsEarly_of_ok (next_brace _)

theorem suffices_next (h : IsValue depth text) {f : Found → Reader α}
    (hscalar : ∀ found, Decoder.Found.IsScalar found → ∀ rest, ¬EndsEarly (f found) rest)
    (harray : ∀ {inner} pad {items : List ItemText}, (∀ i ∈ items, IsValue inner i.value) →
      Suffices (f .sequence) (bracketedText pad items))
    (hobject : ∀ {inner} pad {ms : List MemberText}, (∀ m ∈ ms, IsValue inner m.value) →
      Suffices (f .map) (bracedText pad ms)) : Suffices (next >>= f) text := by
  intro rest hrest
  have hnext := next_suffices h rest hrest
  cases h with
  | null =>
      refine (endsEarly_bind_iff f (next_null rest)).not.mpr ?_
      exact hscalar .null ⟨nofun, nofun⟩ rest
  | boolean _ b =>
      refine (endsEarly_bind_iff f (next_boolean rest b)).not.mpr ?_
      exact hscalar (.boolean b) ⟨nofun, nofun⟩ rest
  | number _ n =>
      refine (Decoder.settles_next_number n).not_endsEarly_bind hrest hnext fun found hfound => ?_
      obtain ⟨value, -, rfl⟩ := Option.map_eq_some_iff.mp hfound
      exact hscalar (.number value) ⟨nofun, nofun⟩ rest
  | string _ gs =>
      refine (Decoder.settles_next_string gs).not_endsEarly_bind hrest hnext fun found hfound => ?_
      obtain ⟨s, -, rfl⟩ := Option.map_eq_some_iff.mp hfound
      exact hscalar (.string s) ⟨nofun, nofun⟩ rest
  | array pad hitems =>
      exact (endsEarly_bind_iff f (next_bracket _)).not.mpr (harray pad hitems rest hrest)
  | object pad hmembers =>
      exact (endsEarly_bind_iff f (next_brace _)).not.mpr (hobject pad hmembers rest hrest)

end Next

section Items

variable {item : Reader α}

theorem items_suffice {f : ItemText → Option α} {its : List ItemText}
    (h : ∀ i ∈ its, Begins i.value ∧ Settles item i.value (f i) ∧ Suffices item i.value)
    {most : Nat} (hmost : its.length < most) (first : Bool) (pad : Blanks) (taken : List α)
    (rest : List Char) :
    ¬EndsEarly (items item most first taken)
      (pad.val ++ (separated first (its.map ItemText.text) ++ ']' :: rest)) := by
  induction its generalizing most first pad taken with
  | nil =>
      obtain ⟨most, rfl⟩ := Nat.exists_eq_add_of_lt hmost
      have hpad : IgnoresBlanks (hasItem first) := ignoresBlanks_peekToken.bind _
      exact not_endsEarly_of_ok ((hpad.bind _ pad _).trans (items_end first taken rest))
  | cons i its ih =>
      obtain ⟨most, rfl⟩ := Nat.exists_eq_add_of_lt hmost
      obtain ⟨hbegins, hsettles, hsuffices⟩ := h i List.mem_cons_self
      have hends := endsNumber_blanks i.after
        (endsNumber_separated (.inl rfl) (its.map ItemText.text) rest)
      have hlength : its.length < (i :: its).length + most := by
        rw [List.length_cons]
        omega
      rw [separated_items, items,
        endsEarly_bind_iff _ (hasItem_leadIn first pad i.before hbegins _)]
      refine hsettles.not_endsEarly_bind hends (hsuffices _ hends) fun a _ => ?_
      exact ih (fun j hj => h j (List.mem_cons_of_mem i hj)) hlength false i.after (a :: taken)

theorem bracketed_suffices {f : ItemText → Option α} (pad : Blanks) {its : List ItemText}
    (h : ∀ i ∈ its, Begins i.value ∧ Settles item i.value (f i) ∧ Suffices item i.value) :
    Suffices (bracketed item) (bracketedText pad its) := by
  intro rest _
  have hmost := length_items_lt (fun i hi => (h i hi).1) pad (']' :: rest)
  rw [bracketedText, List.cons_append, closed_append, bracketed,
    endsEarly_bind_iff _ (advance_cons '[' _), endsEarly_bind_iff _ (get_run _)]
  refine not_endsEarly_bind (items_suffice h hmost true pad [] rest) fun taken behind hrun => ?_
  have hitems := items_separated (fun i hi => ⟨(h i hi).1, (h i hi).2.1⟩) hmost true pad [] rest
  rw [run?_of_ok hrun, eq_comm, Option.map_eq_some_iff] at hitems
  obtain ⟨values, -, htaken⟩ := hitems
  obtain ⟨-, rfl⟩ := Prod.mk.inj htaken
  exact (endsEarly_bind_iff _ (closeList_run rest)).not.mpr (not_endsEarly_of_ok rfl)

end Items

section Members

variable {member : σ → String → Reader σ}

theorem fromColon_suffices {reader : Reader α} {m : MemberText}
    (h : Suffices reader (m.lead.val ++ m.value)) : Suffices (do colon; reader) m.fromColon := by
  intro rest hrest hends
  have hgap : IgnoresBlanks colon := ignoresBlanks_peekToken.bind _
  rw [MemberText.fromColon, List.append_assoc, List.cons_append] at hends
  have hcolon := endsEarly_of_eq (hgap.bind _ m.gap _).symm hends
  exact h rest hrest ((endsEarly_bind_iff _ (colon_run _)).mp hcolon)

theorem members_suffice {g : σ → String → MemberText → Option σ} {ms : List MemberText}
    (h : ∀ m ∈ ms, ∀ s key, m.key? = some key →
      Settles (member s key) m.fromColon (g s key m) ∧ Suffices (member s key) m.fromColon)
    {most : Nat} (hmost : ms.length < most) (first : Bool) (pad : Blanks) (s : σ)
    (rest : List Char) :
    ¬EndsEarly (members member most first s)
      (pad.val ++ (separated first (ms.map MemberText.text) ++ '\x7d' :: rest)) := by
  induction ms generalizing most first pad s with
  | nil =>
      obtain ⟨most, rfl⟩ := Nat.exists_eq_add_of_lt hmost
      have hpad : IgnoresBlanks (hasMember first) := ignoresBlanks_peekToken.bind _
      exact not_endsEarly_of_ok ((hpad.bind _ pad _).trans (members_end first s rest))
  | cons m ms ih =>
      obtain ⟨most, rfl⟩ := Nat.exists_eq_add_of_lt hmost
      have hlength : ms.length < (m :: ms).length + most := by
        rw [List.length_cons]
        omega
      have hends := endsNumber_blanks m.after
        (endsNumber_separated (.inr rfl) (ms.map MemberText.text) rest)
      have hcolon := endsNumber_fromColon m
        (m.after.val ++ (separated false (ms.map MemberText.text) ++ '\x7d' :: rest))
      rw [separated_members, members,
        endsEarly_bind_iff _ (hasMember_leadIn first pad m.before m.key _)]
      refine (settles_quotedString m.key).not_endsEarly_bind hcolon
        (quotedString_suffices m.key _ hcolon) fun key hkey => ?_
      obtain ⟨hsettles, hsuffices⟩ := h m List.mem_cons_self s key hkey
      refine hsettles.not_endsEarly_bind hends (hsuffices _ hends) fun t _ => ?_
      exact ih (fun n hn => h n (List.mem_cons_of_mem m hn)) hlength false m.after t

theorem braced_suffices {g : σ → String → MemberText → Option σ} (pad : Blanks)
    {ms : List MemberText} (start : σ)
    (h : ∀ m ∈ ms, ∀ s key, m.key? = some key →
      Settles (member s key) m.fromColon (g s key m) ∧ Suffices (member s key) m.fromColon) :
    Suffices (braced member start) (bracedText pad ms) := by
  intro rest _
  have hmost := length_members_lt ms pad ('\x7d' :: rest)
  rw [bracedText, List.cons_append, closed_append, braced,
    endsEarly_bind_iff _ (advance_cons '\x7b' _), endsEarly_bind_iff _ (get_run _)]
  refine not_endsEarly_bind (members_suffice h hmost true pad start rest) fun _ _ hrun => ?_
  have hmembers := members_separated (fun m hm s key hkey => (h m hm s key hkey).1) hmost true pad
    start rest
  obtain ⟨-, rfl⟩ := eq_of_run?_eq_map hrun hmembers
  exact (endsEarly_bind_iff _ (closeObject_run rest)).not.mpr (not_endsEarly_of_ok rfl)

end Members

end Reader

end DashboardScript.Json
