import DashboardScript.Json.Decoder

namespace DashboardScript.Json

namespace Reader

section Run

variable {α β : Type}

theorem bind_of_ok {reader : Reader α} {text rest : List Char} {a : α} (f : α → Reader β)
    (h : reader text = .ok (a, rest)) : (reader >>= f) text = f a rest := by
  simp only [bind, StateT.bind, h, Except.bind]

theorem map_of_ok {reader : Reader α} {text rest : List Char} {a : α} (f : α → β)
    (h : reader text = .ok (a, rest)) : (f <$> reader) text = .ok (f a, rest) := by
  simp only [Functor.map, StateT.map, h, bind, Except.bind, pure, Except.pure]

theorem pure_run (a : α) (text : List Char) : (pure a : Reader α) text = .ok (a, text) := rfl

theorem get_run (text : List Char) : (get : Reader (List Char)) text = .ok (text, text) := rfl

end Run

theorem peek_cons (c : Char) (rest : List Char) : peek (c :: rest) = .ok (some c, c :: rest) := rfl

theorem advance_cons (c : Char) (rest : List Char) : advance (c :: rest) = .ok ((), rest) := rfl

theorem peekToken_cons {c : Char} (hc : isBlank c = false) (rest : List Char) :
    peekToken (c :: rest) = .ok (some c, c :: rest) := by
  have hblank : blank (c :: rest) = .ok ((), c :: rest) := by simp [blank, hc]
  exact bind_of_ok _ hblank

theorem letters_append (word rest : List Char) : letters word (word ++ rest) = .ok ((), rest) := by
  induction word with
  | nil => rfl
  | cons letter word ih =>
      rw [letters, List.cons_append, bind_of_ok _ (peek_cons letter _)]
      simp only [if_true]
      rw [bind_of_ok _ (advance_cons letter _), ih]

theorem word_append (letter : Char) (letters rest : List Char) (found : Found) :
    word letters found (letter :: letters ++ rest) = .ok (found, rest) := by
  rw [word, List.cons_append, bind_of_ok _ (advance_cons letter _),
    bind_of_ok _ (letters_append letters rest)]
  rfl

theorem not_blank_of_numeral {c : Char} (hc : c = '-' ∨ c.isDigit) :
    isBlank c = false ∧ c ≠ ']' ∧ c ≠ 'n' := by
  rcases hc with rfl | hdigit
  · decide
  · have hne : ∀ d : Char, d.isDigit = false → c ≠ d := fun d hd h => by simp [h, hd] at hdigit
    refine ⟨?_, hne ']' rfl, hne 'n' rfl⟩
    simp [isBlank, hne ' ' rfl, hne '\n' rfl, hne '\t' rfl, hne '\r' rfl]

-- What `next` makes of a value, by the first character of it.
section Next

variable (rest : List Char)

theorem next_null : next ("null".toList ++ rest) = .ok (.null, rest) := by
  unfold next
  exact (bind_of_ok _ (peekToken_cons rfl _)).trans (word_append 'n' ['u', 'l', 'l'] rest .null)

theorem next_boolean (b : Bool) :
    next ((if b then "true" else "false").toList ++ rest) = .ok (.boolean b, rest) := by
  unfold next
  cases b with
  | false =>
      exact (bind_of_ok _ (peekToken_cons rfl _)).trans
        (word_append 'f' ['a', 'l', 's', 'e'] rest (.boolean false))
  | true =>
      exact (bind_of_ok _ (peekToken_cons rfl _)).trans
        (word_append 't' ['r', 'u', 'e'] rest (.boolean true))

theorem next_quote : next ('"' :: rest) = (Found.string <$> quotedString) ('"' :: rest) := by
  unfold next
  exact bind_of_ok _ (peekToken_cons rfl _)

theorem next_bracket : next ('[' :: rest) = .ok (.sequence, '[' :: rest) := by
  unfold next
  exact bind_of_ok _ (peekToken_cons rfl _)

theorem next_brace : next ('\x7b' :: rest) = .ok (.map, '\x7b' :: rest) := by
  unfold next
  exact bind_of_ok _ (peekToken_cons rfl _)

theorem next_numeral {c : Char} (hc : c = '-' ∨ c.isDigit) :
    next (c :: rest) = (Found.number <$> number) (c :: rest) := by
  unfold next
  rw [bind_of_ok _ (peekToken_cons (not_blank_of_numeral hc).1 _)]
  dsimp only
  split
  case h_7 => rw [if_pos (by simpa using hc)]
  all_goals simp at hc

end Next

-- No number goes on with what comes next.
def EndsNumber (rest : List Char) : Prop :=
  ∀ c ∈ rest.head?, ¬c.isDigit ∧ c ≠ '.' ∧ c ≠ 'e' ∧ c ≠ 'E'

theorem endsNumber_nil : EndsNumber [] := by
  simp [EndsNumber]

theorem endsNumber_cons {c : Char} {rest : List Char}
    (h : ¬c.isDigit ∧ c ≠ '.' ∧ c ≠ 'e' ∧ c ≠ 'E') : EndsNumber (c :: rest) := by
  simpa [EndsNumber] using h

-- The reader takes just this text, whatever comes behind it.
def Takes {α : Type} (reader : Reader α) (text : List Char) (a : α) : Prop :=
  ∀ rest, EndsNumber rest → reader (text ++ rest) = .ok (a, rest)

-- The text of a value that the reader takes. It cannot be mistaken for blanks or for the end of an
-- array.
structure Spells {α : Type} (reader : Reader α) (text : String) (a : α) : Prop where
  begins : ∃ c tail, text.toList = c :: tail ∧ isBlank c = false ∧ c ≠ ']'
  takes : Takes reader text.toList a

end Reader

namespace Decoder

-- Likewise for a decoder that has so many levels to open, or more.
def Spells {α : Type} (decoder : Decoder α) (depth : Nat) (text : String) (a : α) : Prop :=
  ∀ room, depth ≤ room → Reader.Spells (decoder room) text a

end Decoder

end DashboardScript.Json
