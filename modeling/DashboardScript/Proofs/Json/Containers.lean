import DashboardScript.Proofs.Json.Glyphs
import DashboardScript.Proofs.Json.Sequences

namespace DashboardScript.Json

open Grammar

namespace Reader

-- The text of an item cannot be mistaken for blanks or for the end of its array.
def Begins (text : List Char) : Prop := ∃ c tail, text = c :: tail ∧ isBlank c = false ∧ c ≠ ']'

-- Neither a further piece nor the end of the pieces goes on with a number.
theorem endsNumber_separated {closing : Char} (hclosing : closing = ']' ∨ closing = '\x7d')
    (pieces : List (List Char)) (rest : List Char) :
    EndsNumber (separated false pieces ++ closing :: rest) := by
  cases pieces with
  | nil => rcases hclosing with rfl | rfl <;> exact endsNumber_cons (by decide)
  | cons piece pieces => exact endsNumber_cons (by decide)

-- A round for each piece is no more than a round for each character.
theorem length_le_separated {pieces : List (List Char)} (h : ∀ piece ∈ pieces, piece ≠ [])
    (first : Bool) : pieces.length ≤ (separated first pieces).length := by
  induction pieces generalizing first with
  | nil => exact Nat.le_refl 0
  | cons piece pieces ih =>
      have hpos := List.length_pos_of_ne_nil (h piece List.mem_cons_self)
      have hrest := ih (fun p hp => h p (List.mem_cons_of_mem _ hp)) false
      simp only [separated, List.length_append, List.length_cons]
      omega

-- What stands between two pieces, with the blanks around it.
def leadIn (first : Bool) (pad before : Blanks) (text : List Char) : List Char :=
  pad.val ++ ((if first then [] else [',']) ++ (before.val ++ text))

section Items

variable {α : Type} {item : Reader α}

theorem hasItem_comma_blanks (pad : Blanks) (text : List Char) :
    hasItem false (',' :: (pad.val ++ text)) = hasItem false (',' :: text) := by
  have hcomma : ∀ text, hasItem false (',' :: text) = _ := fun text =>
    (bind_of_ok _ (peekToken_cons rfl _)).trans (bind_of_ok _ (advance_cons ',' text))
  exact (hcomma _).trans ((ignoresBlanks_peekToken.bind _ pad text).trans (hcomma _).symm)

theorem hasItem_leadIn (first : Bool) (pad before : Blanks) {text : List Char} (h : Begins text)
    (rest : List Char) :
    hasItem first (leadIn first pad before (text ++ rest)) = .ok (true, text ++ rest) := by
  obtain ⟨c, tail, rfl, hblank, hc⟩ := h
  have hpad : IgnoresBlanks (hasItem first) := ignoresBlanks_peekToken.bind _
  rw [leadIn, hpad pad]
  cases first with
  | true => exact (hpad before _).trans (hasItem_first hblank hc _)
  | false => exact (hasItem_comma_blanks before _).trans (hasItem_comma hblank hc _)

theorem separated_items (first : Bool) (pad : Blanks) (i : ItemText) (its : List ItemText)
    (behind : List Char) :
    pad.val ++ (separated first ((i :: its).map ItemText.text) ++ behind) =
      leadIn first pad i.before
        (i.value ++ (i.after.val ++ (separated false (its.map ItemText.text) ++ behind))) := by
  simp only [List.map_cons, separated, ItemText.text, leadIn, List.append_assoc]

-- The items are read one after the other, and the first failure is one of the whole.
theorem items_separated {f : ItemText → Option α} {its : List ItemText}
    (h : ∀ i ∈ its, Begins i.value ∧ Settles item i.value (f i)) {most : Nat}
    (hmost : its.length < most) (first : Bool) (pad : Blanks) (taken : List α) (rest : List Char) :
    (items item most first taken).run?
        (pad.val ++ (separated first (its.map ItemText.text) ++ ']' :: rest)) =
      (its.mapM f).map fun values => (values.reverse ++ taken, ']' :: rest) := by
  induction its generalizing most first pad taken with
  | nil =>
      obtain ⟨most, rfl⟩ := Nat.exists_eq_add_of_lt hmost
      have hpad : IgnoresBlanks (hasItem first) := ignoresBlanks_peekToken.bind _
      exact run?_of_ok ((hpad.bind _ pad _).trans (items_end first taken rest))
  | cons i its ih =>
      obtain ⟨most, rfl⟩ := Nat.exists_eq_add_of_lt hmost
      obtain ⟨hbegins, hsettles⟩ := h i List.mem_cons_self
      have hends := endsNumber_blanks i.after
        (endsNumber_separated (.inl rfl) (its.map ItemText.text) rest)
      have hlength : its.length < (i :: its).length + most := by
        rw [List.length_cons]
        omega
      have hrest := fun a =>
        ih (fun j hj => h j (List.mem_cons_of_mem i hj)) hlength false i.after (a :: taken)
      rw [separated_items, items, run?_bind_of_ok _ (hasItem_leadIn first pad i.before hbegins _)]
      simp only [if_true]
      rw [hsettles.run?_bind hends, List.mapM_cons]
      cases f i with
      | none => rfl
      | some a =>
          refine (hrest a).trans ?_
          cases its.mapM f <;> simp

theorem closed_append (pad : Blanks) (pieces : List (List Char)) (closing : Char)
    (rest : List Char) :
    pad.val ++ (separated true pieces ++ [closing]) ++ rest =
      pad.val ++ (separated true pieces ++ closing :: rest) := by
  rw [List.append_assoc, List.append_assoc, List.singleton_append]

theorem length_le_closed {pieces : List (List Char)} (h : ∀ piece ∈ pieces, piece ≠ [])
    (pad : Blanks) (behind : List Char) :
    pieces.length < (pad.val ++ (separated true pieces ++ behind)).length + 1 := by
  have hle := length_le_separated h true
  simp only [List.length_append]
  omega

theorem length_items_lt {its : List ItemText} (h : ∀ i ∈ its, Begins i.value) (pad : Blanks)
    (behind : List Char) :
    its.length < (pad.val ++ (separated true (its.map ItemText.text) ++ behind)).length + 1 := by
  have hne : ∀ piece ∈ its.map ItemText.text, piece ≠ [] := by
    intro piece hpiece
    obtain ⟨i, hi, rfl⟩ := List.mem_map.mp hpiece
    obtain ⟨c, tail, hvalue, -⟩ := h i hi
    simp [ItemText.text, hvalue]
  have hle := length_le_closed hne pad behind
  rwa [List.length_map] at hle

theorem settles_bracketed {f : ItemText → Option α} (pad : Blanks) {its : List ItemText}
    (h : ∀ i ∈ its, Begins i.value ∧ Settles item i.value (f i)) :
    Settles (bracketed item) (bracketedText pad its) (its.mapM f) := by
  intro rest _
  have hmost := length_items_lt (fun i hi => (h i hi).1) pad (']' :: rest)
  rw [bracketedText, List.cons_append, closed_append, bracketed,
    run?_bind_of_ok _ (advance_cons '[' _), run?_bind_of_ok _ (get_run _), run?_bind,
    items_separated h hmost true pad [] rest]
  cases its.mapM f with
  | none => rfl
  | some values =>
      simp only [Option.map_some, Option.bind_some, List.append_nil]
      rw [run?_bind_of_ok _ (closeList_run rest), run?_pure, List.reverse_reverse]

end Items

section Members

variable {σ : Type} {member : σ → String → Reader σ}

theorem settles_fromColon {α : Type} {reader : Reader α} {m : MemberText} {outcome : Option α}
    (h : Settles reader (m.lead.val ++ m.value) outcome) :
    Settles (do colon; reader) m.fromColon outcome := by
  intro rest hrest
  have hgap : IgnoresBlanks colon := ignoresBlanks_peekToken.bind _
  rw [MemberText.fromColon, List.append_assoc, List.cons_append, (hgap.bind _).run?,
    run?_bind_of_ok _ (colon_run _), h rest hrest]

theorem hasMember_comma_blanks (pad : Blanks) (text : List Char) :
    hasMember false (',' :: (pad.val ++ text)) = hasMember false (',' :: text) := by
  have hcomma : ∀ text, hasMember false (',' :: text) = _ := fun text =>
    (bind_of_ok _ (peekToken_cons rfl _)).trans (bind_of_ok _ (advance_cons ',' text))
  exact (hcomma _).trans ((ignoresBlanks_peekToken.bind _ pad text).trans (hcomma _).symm)

theorem hasMember_leadIn (first : Bool) (pad before : Blanks) (gs : List Glyph) (rest : List Char) :
    hasMember first (leadIn first pad before (quotedText gs ++ rest)) =
      .ok (true, quotedText gs ++ rest) := by
  have hpad : IgnoresBlanks (hasMember first) := ignoresBlanks_peekToken.bind _
  rw [leadIn, hpad pad]
  cases first with
  | true => exact (hpad before _).trans (hasMember_first _)
  | false => exact (hasMember_comma_blanks before _).trans (hasMember_comma _)

theorem separated_members (first : Bool) (pad : Blanks) (m : MemberText) (ms : List MemberText)
    (behind : List Char) :
    pad.val ++ (separated first ((m :: ms).map MemberText.text) ++ behind) =
      leadIn first pad m.before (quotedText m.key ++
        (m.fromColon ++ (m.after.val ++ (separated false (ms.map MemberText.text) ++ behind)))) := by
  simp only [List.map_cons, separated, MemberText.text, leadIn, List.append_assoc]

theorem endsNumber_fromColon (m : MemberText) (rest : List Char) :
    EndsNumber (m.fromColon ++ rest) := by
  rw [MemberText.fromColon, List.append_assoc]
  exact endsNumber_blanks m.gap (endsNumber_cons (by decide))

-- What a member makes of a state, if its key means something.
def stepBy (g : σ → String → MemberText → Option σ) (s : σ) (m : MemberText) : Option σ :=
  m.key?.bind fun key => g s key m

-- The members are folded one after the other, and the first failure is one of the whole.
theorem members_separated {g : σ → String → MemberText → Option σ} {ms : List MemberText}
    (h : ∀ m ∈ ms, ∀ s key, m.key? = some key → Settles (member s key) m.fromColon (g s key m))
    {most : Nat} (hmost : ms.length < most) (first : Bool) (pad : Blanks) (s : σ)
    (rest : List Char) :
    (members member most first s).run?
        (pad.val ++ (separated first (ms.map MemberText.text) ++ '\x7d' :: rest)) =
      (ms.foldlM (stepBy g) s).map (·, '\x7d' :: rest) := by
  induction ms generalizing most first pad s with
  | nil =>
      obtain ⟨most, rfl⟩ := Nat.exists_eq_add_of_lt hmost
      have hpad : IgnoresBlanks (hasMember first) := ignoresBlanks_peekToken.bind _
      exact run?_of_ok ((hpad.bind _ pad _).trans (members_end first s rest))
  | cons m ms ih =>
      obtain ⟨most, rfl⟩ := Nat.exists_eq_add_of_lt hmost
      have hlength : ms.length < (m :: ms).length + most := by
        rw [List.length_cons]
        omega
      have hrest := fun t =>
        ih (fun n hn => h n (List.mem_cons_of_mem m hn)) hlength false m.after t
      have hends := endsNumber_blanks m.after
        (endsNumber_separated (.inr rfl) (ms.map MemberText.text) rest)
      rw [separated_members, members, run?_bind_of_ok _ (hasMember_leadIn first pad m.before m.key _)]
      simp only [if_true]
      rw [(settles_quotedString m.key).run?_bind (endsNumber_fromColon m _), List.foldlM_cons,
        stepBy]
      change m.key?.bind _ = _
      cases hkey : m.key? with
      | none => rfl
      | some key =>
          simp only [Option.bind_some]
          rw [(h m List.mem_cons_self s key hkey).run?_bind hends]
          cases g s key m with
          | none => rfl
          | some t => exact hrest t

theorem length_members_lt (ms : List MemberText) (pad : Blanks) (behind : List Char) :
    ms.length < (pad.val ++ (separated true (ms.map MemberText.text) ++ behind)).length + 1 := by
  have hne : ∀ piece ∈ ms.map MemberText.text, piece ≠ [] := by
    intro piece hpiece
    obtain ⟨m, hm, rfl⟩ := List.mem_map.mp hpiece
    simp [MemberText.text, quotedText]
  have hle := length_le_closed hne pad behind
  rwa [List.length_map] at hle

theorem settles_braced {g : σ → String → MemberText → Option σ} (pad : Blanks)
    {ms : List MemberText} (start : σ)
    (h : ∀ m ∈ ms, ∀ s key, m.key? = some key → Settles (member s key) m.fromColon (g s key m)) :
    Settles (braced member start) (bracedText pad ms) (ms.foldlM (stepBy g) start) := by
  intro rest _
  have hmost := length_members_lt ms pad ('\x7d' :: rest)
  rw [bracedText, List.cons_append, closed_append, braced,
    run?_bind_of_ok _ (advance_cons '\x7b' _), run?_bind_of_ok _ (get_run _), run?_bind,
    members_separated h hmost true pad start rest]
  cases ms.foldlM (stepBy g) start with
  | none => rfl
  | some final =>
      simp only [Option.map_some, Option.bind_some]
      rw [run?_bind_of_ok _ (closeObject_run rest), run?_pure]

end Members

end Reader

end DashboardScript.Json
