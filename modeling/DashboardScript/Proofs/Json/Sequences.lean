import DashboardScript.Proofs.Json.Strings
import DashboardScript.Proofs.Text.Pieces

namespace DashboardScript.Json

open Text (toList_intercalate_cons)

-- An array without any blank.
def arrayText (items : List String) : String := "[" ++ ",".intercalate items ++ "]"

-- A member of an object as it is written. The spelling is that of the key, with its quotes.
structure Member where
  key : String
  spelling : String
  value : String

def Member.text (m : Member) : String := m.spelling ++ ":" ++ m.value

def objectText (members : List Member) : String :=
  "\x7b" ++ ",".intercalate (members.map Member.text) ++ "\x7d"

-- Pieces with commas between them, up to a closing character and what is behind it.
def piecesText (closing : Char) (rest : List Char) : List String → List Char
  | [] => closing :: rest
  | piece :: pieces =>
    piece.toList ++ (pieces.flatMap (fun piece => ',' :: piece.toList) ++ closing :: rest)

theorem toList_enclosed (opening closing : Char) (pieces : List String) (rest : List Char) :
    (opening.toString ++ ",".intercalate pieces ++ closing.toString).toList ++ rest =
      opening :: piecesText closing rest pieces := by
  have hcomma : ",".toList = [','] := rfl
  cases pieces with
  | nil => simp [piecesText]
  | cons piece pieces =>
      simp only [piecesText, String.toList_append, toList_intercalate_cons,
        Char.toString_eq_singleton, String.toList_singleton, hcomma, List.cons_append,
        List.append_assoc, List.nil_append]

-- A round for each piece is no more than a round for each character.
theorem length_le_piecesText (closing : Char) (rest : List Char) (pieces : List String) :
    pieces.length ≤ (piecesText closing rest pieces).length := by
  have htail : ∀ pieces : List String,
      pieces.length ≤ (pieces.flatMap fun piece => ',' :: piece.toList).length := by
    intro pieces
    induction pieces with
    | nil => exact Nat.le_refl 0
    | cons piece pieces ih =>
        rw [List.flatMap_cons, List.length_append, List.length_cons, List.length_cons]
        omega
  cases pieces with
  | nil => exact Nat.zero_le _
  | cons piece pieces =>
      have hle := htail pieces
      simp only [piecesText, List.length_append, List.length_cons]
      omega

namespace Reader

-- Neither a further piece nor the end of the pieces goes on with a number.
theorem endsNumber_pieces {closing : Char} (hclosing : closing = ']' ∨ closing = '\x7d')
    (pieces : List String) (rest : List Char) :
    EndsNumber (pieces.flatMap (fun piece => ',' :: piece.toList) ++ closing :: rest) := by
  cases pieces with
  | nil => rcases hclosing with rfl | rfl <;> exact endsNumber_cons (by decide)
  | cons piece pieces => exact endsNumber_cons (by decide)

section Items

variable {α : Type} {item : Reader α}

theorem hasItem_end (first : Bool) (rest : List Char) :
    hasItem first (']' :: rest) = .ok (false, ']' :: rest) := by
  rw [hasItem, bind_of_ok _ (peekToken_cons rfl _)]
  rfl

theorem hasItem_first {c : Char} (hblank : isBlank c = false) (hc : c ≠ ']') (rest : List Char) :
    hasItem true (c :: rest) = .ok (true, c :: rest) := by
  rw [hasItem, bind_of_ok _ (peekToken_cons hblank _)]
  simp only [hc, if_false, if_true]
  rfl

theorem hasItem_comma {c : Char} (hblank : isBlank c = false) (hc : c ≠ ']') (rest : List Char) :
    hasItem false (',' :: c :: rest) = .ok (true, c :: rest) := by
  have hbehind : peekToken (c :: rest) = .ok (some c, c :: rest) := peekToken_cons hblank rest
  rw [hasItem, bind_of_ok _ (peekToken_cons rfl _)]
  refine (bind_of_ok _ (advance_cons ',' _)).trans ((bind_of_ok _ hbehind).trans ?_)
  simp only [hc, if_false]
  rfl

theorem items_end {most : Nat} (first : Bool) (taken : List α) (rest : List Char) :
    items item (most + 1) first taken (']' :: rest) = .ok (taken, ']' :: rest) := by
  rw [items, bind_of_ok _ (hasItem_end first rest)]
  rfl

-- The items behind the first one, each with a comma before it.
theorem items_pieces {texts : List String} {values : List α}
    (h : List.Forall₂ (Spells item) texts values) {most : Nat} (hmost : texts.length < most)
    (taken : List α) (rest : List Char) :
    items item most false taken (texts.flatMap (fun text => ',' :: text.toList) ++ ']' :: rest) =
      .ok (values.reverse ++ taken, ']' :: rest) := by
  induction h generalizing most taken with
  | nil =>
      obtain ⟨spare, rfl⟩ := Nat.exists_eq_add_of_lt hmost
      exact items_end false taken rest
  | @cons text a texts values htext htexts ih =>
      rw [List.length_cons] at hmost
      obtain ⟨spare, rfl⟩ := Nat.exists_eq_add_of_lt hmost
      obtain ⟨c, tail, hcons, hblank, hc⟩ := htext.begins
      have htakes := htext.takes _ (endsNumber_pieces (.inl rfl) texts rest)
      rw [hcons, List.cons_append] at htakes
      rw [List.flatMap_cons, List.append_assoc, List.cons_append, hcons, List.cons_append, items,
        bind_of_ok _ (hasItem_comma hblank hc _)]
      simp only [if_true]
      rw [bind_of_ok _ htakes, ih (by omega)]
      simp

theorem closeList_run (rest : List Char) : closeList (']' :: rest) = .ok ((), rest) := by
  rw [closeList, bind_of_ok _ (peekToken_cons rfl _)]
  rfl

theorem items_piecesText {texts : List String} {values : List α}
    (h : List.Forall₂ (Spells item) texts values) {most : Nat} (hmost : texts.length < most)
    (rest : List Char) :
    items item most true [] (piecesText ']' rest texts) = .ok (values.reverse, ']' :: rest) := by
  obtain ⟨spare, rfl⟩ := Nat.exists_eq_add_of_lt hmost
  cases h with
  | nil => exact items_end true [] rest
  | @cons text a texts values htext htexts =>
      obtain ⟨c, tail, hcons, hblank, hc⟩ := htext.begins
      have htakes := htext.takes _ (endsNumber_pieces (.inl rfl) texts rest)
      rw [hcons, List.cons_append] at htakes
      rw [piecesText, hcons, List.cons_append, items, bind_of_ok _ (hasItem_first hblank hc _)]
      simp only [if_true]
      rw [bind_of_ok _ htakes, items_pieces htexts (by rw [List.length_cons]; omega)]
      simp

theorem bracketed_arrayText {texts : List String} {values : List α}
    (h : List.Forall₂ (Spells item) texts values) (rest : List Char) :
    bracketed item ((arrayText texts).toList ++ rest) = .ok (values, rest) := by
  have htext : (arrayText texts).toList ++ rest = '[' :: piecesText ']' rest texts :=
    toList_enclosed '[' ']' texts rest
  have hmost := Nat.lt_succ_of_le (length_le_piecesText ']' rest texts)
  rw [htext, bracketed, bind_of_ok _ (advance_cons '[' _), bind_of_ok _ (get_run _),
    bind_of_ok _ (items_piecesText h hmost rest), bind_of_ok _ (closeList_run rest), pure_run,
    List.reverse_reverse]

end Items

section Members

variable {σ : Type} {member : σ → String → Reader σ}

theorem hasMember_end (first : Bool) (rest : List Char) :
    hasMember first ('\x7d' :: rest) = .ok (false, '\x7d' :: rest) := by
  rw [hasMember, bind_of_ok _ (peekToken_cons rfl _)]
  rfl

theorem hasMember_first (rest : List Char) :
    hasMember true ('"' :: rest) = .ok (true, '"' :: rest) := by
  rw [hasMember, bind_of_ok _ (peekToken_cons rfl _)]
  rfl

theorem hasMember_comma (rest : List Char) :
    hasMember false (',' :: '"' :: rest) = .ok (true, '"' :: rest) := by
  have hbehind : peekToken ('"' :: rest) = .ok (some '"', '"' :: rest) := peekToken_cons rfl rest
  rw [hasMember, bind_of_ok _ (peekToken_cons rfl _)]
  exact (bind_of_ok _ (advance_cons ',' _)).trans (bind_of_ok _ hbehind)

-- A text between quotes that is read as the key.
structure SpellsKey (spelling key : String) : Prop where
  begins : ∃ tail, spelling.toList = '"' :: tail
  takes : ∀ rest, quotedString (spelling.toList ++ rest) = .ok (key, rest)

theorem spellsKey_stringText (key : String) : SpellsKey (stringText key) key :=
  ⟨⟨_, toList_stringText key⟩, quotedString_stringText key⟩

-- What the members make of a state, one after the other.
inductive Folds (member : σ → String → Reader σ) : σ → List Member → σ → Prop where
  | nil (s : σ) : Folds member s [] s
  | cons {m : Member} {ms : List Member} {s t u : σ} (hkey : SpellsKey m.spelling m.key)
      (htakes : Takes (member s m.key) (':' :: m.value.toList) t) (hrest : Folds member t ms u) :
      Folds member s (m :: ms) u

theorem members_end {most : Nat} (first : Bool) (s : σ) (rest : List Char) :
    members member (most + 1) first s ('\x7d' :: rest) = .ok (s, '\x7d' :: rest) := by
  rw [members, bind_of_ok _ (hasMember_end first rest)]
  rfl

theorem member_begins {m : Member} (hkey : SpellsKey m.spelling m.key) (rest : List Char) :
    ∃ tail, m.text.toList ++ rest = '"' :: tail ∧
      quotedString ('"' :: tail) = .ok (m.key, ':' :: m.value.toList ++ rest) := by
  have hcolon : ":".toList = [':'] := rfl
  obtain ⟨tail, htail⟩ := hkey.begins
  have htext : m.text.toList ++ rest = m.spelling.toList ++ (':' :: m.value.toList ++ rest) := by
    simp only [Member.text, String.toList_append, hcolon, List.append_assoc, List.cons_append,
      List.nil_append]
  refine ⟨tail ++ (':' :: m.value.toList ++ rest), by rw [htext, htail, List.cons_append], ?_⟩
  rw [← List.cons_append, ← htail]
  exact hkey.takes _

-- The members behind the first one, each with a comma before it.
theorem members_pieces {ms : List Member} {s t : σ} (h : Folds member s ms t) {most : Nat}
    (hmost : ms.length < most) (rest : List Char) :
    members member most false s
        ((ms.map Member.text).flatMap (fun text => ',' :: text.toList) ++ '\x7d' :: rest) =
      .ok (t, '\x7d' :: rest) := by
  induction h generalizing most with
  | nil s =>
      obtain ⟨spare, rfl⟩ := Nat.exists_eq_add_of_lt hmost
      exact members_end false s rest
  | @cons m ms s t u hkey htakes hrest ih =>
      rw [List.length_cons] at hmost
      obtain ⟨spare, rfl⟩ := Nat.exists_eq_add_of_lt hmost
      rw [List.map_cons, List.flatMap_cons, List.append_assoc, List.cons_append]
      obtain ⟨tail, htext, hread⟩ := member_begins hkey
        ((ms.map Member.text).flatMap (fun text => ',' :: text.toList) ++ '\x7d' :: rest)
      rw [htext, members, bind_of_ok _ (hasMember_comma tail)]
      simp only [if_true]
      rw [bind_of_ok _ hread,
        bind_of_ok _ (htakes _ (endsNumber_pieces (.inr rfl) (ms.map Member.text) rest)),
        ih (by omega)]

theorem members_piecesText {ms : List Member} {s t : σ} (h : Folds member s ms t) {most : Nat}
    (hmost : ms.length < most) (rest : List Char) :
    members member most true s (piecesText '\x7d' rest (ms.map Member.text)) =
      .ok (t, '\x7d' :: rest) := by
  obtain ⟨spare, rfl⟩ := Nat.exists_eq_add_of_lt hmost
  cases h with
  | nil => exact members_end true s rest
  | @cons m ms _ t _ hkey htakes hrest =>
      rw [List.map_cons, piecesText]
      obtain ⟨tail, htext, hread⟩ := member_begins hkey
        ((ms.map Member.text).flatMap (fun text => ',' :: text.toList) ++ '\x7d' :: rest)
      rw [htext, members, bind_of_ok _ (hasMember_first tail)]
      simp only [if_true]
      rw [bind_of_ok _ hread,
        bind_of_ok _ (htakes _ (endsNumber_pieces (.inr rfl) (ms.map Member.text) rest)),
        members_pieces hrest (by rw [List.length_cons]; omega)]

theorem colon_run (rest : List Char) : colon (':' :: rest) = .ok ((), rest) := by
  rw [colon, bind_of_ok _ (peekToken_cons rfl _)]
  rfl

theorem closeObject_run (rest : List Char) : closeObject ('\x7d' :: rest) = .ok ((), rest) := by
  rw [closeObject, bind_of_ok _ (peekToken_cons rfl _)]
  rfl

theorem braced_objectText {ms : List Member} {start final : σ} (h : Folds member start ms final)
    (rest : List Char) :
    braced member start ((objectText ms).toList ++ rest) = .ok (final, rest) := by
  have htext : (objectText ms).toList ++ rest =
      '\x7b' :: piecesText '\x7d' rest (ms.map Member.text) :=
    toList_enclosed '\x7b' '\x7d' (ms.map Member.text) rest
  have hmost := Nat.lt_succ_of_le (length_le_piecesText '\x7d' rest (ms.map Member.text))
  rw [List.length_map] at hmost
  rw [htext, braced, bind_of_ok _ (advance_cons '\x7b' _), bind_of_ok _ (get_run _),
    bind_of_ok _ (members_piecesText h hmost rest), bind_of_ok _ (closeObject_run rest), pure_run]

end Members

end Reader

end DashboardScript.Json
