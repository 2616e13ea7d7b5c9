import DashboardScript.Proofs.Json.Grammar

namespace DashboardScript.Json.Reader

open Grammar (Blanks)

variable {α β : Type}

-- What a reader takes from a text, but for the reason of a failure.
def run? (reader : Reader α) (text : List Char) : Option (α × List Char) := (reader text).toOption

section Run

variable {reader : Reader α} {text rest : List Char}

theorem run?_of_ok {a : α} (h : reader text = .ok (a, rest)) : reader.run? text = some (a, rest) := by
  rw [run?, h]
  rfl

@[simp]
theorem run?_pure (a : α) (text : List Char) : (pure a : Reader α).run? text = some (a, text) := rfl

@[simp]
theorem run?_fail (cause : Cause) (text : List Char) : (fail cause : Reader α).run? text = none :=
  rfl

@[simp]
theorem run?_failPast (count : Nat) (cause : Cause) (text : List Char) :
    (failPast count cause : Reader α).run? text = none := rfl

theorem run?_bind (reader : Reader α) (f : α → Reader β) (text : List Char) :
    (reader >>= f).run? text = (reader.run? text).bind fun taken => (f taken.1).run? taken.2 := by
  simp only [run?, bind, StateT.bind, Except.bind]
  cases reader text <;> rfl

theorem run?_map (f : α → β) (reader : Reader α) (text : List Char) :
    (f <$> reader).run? text = (reader.run? text).map fun taken => (f taken.1, taken.2) := by
  rw [← bind_pure_comp, run?_bind]
  cases reader.run? text <;> rfl

-- A reader that has taken something goes on with the rest.
theorem run?_bind_of_ok {a : α} (f : α → Reader β) (h : reader text = .ok (a, rest)) :
    (reader >>= f).run? text = (f a).run? rest := by
  rw [run?, bind_of_ok f h, run?]

theorem run?_bind_none {f : α → Reader β} (h : ∀ a rest, (f a).run? rest = none)
    (reader : Reader α) (text : List Char) : (reader >>= f).run? text = none := by
  rw [run?_bind]
  cases reader.run? text with
  | none => rfl
  | some taken => exact h taken.1 taken.2

@[simp]
theorem run?_failList (cause : Cause) (text : List Char) :
    (failList cause : Reader α).run? text = none := by
  refine run?_bind_none (fun c rest => ?_) peekToken text
  dsimp only
  split
  · exact run?_bind_none (fun _ rest => run?_fail cause rest) advance rest
  · split
    · refine run?_bind_none (fun _ rest => ?_) advance rest
      exact run?_bind_none (fun _ rest => run?_fail cause rest) blank rest
    · exact run?_fail cause rest

@[simp]
theorem run?_failObject (cause : Cause) (text : List Char) :
    (failObject cause : Reader α).run? text = none := by
  refine run?_bind_none (fun c rest => ?_) peekToken text
  dsimp only
  split
  · exact run?_bind_none (fun _ rest => run?_fail cause rest) advance rest
  · exact run?_fail cause rest

end Run

theorem isBlank_iff {c : Char} : isBlank c ↔ c ∈ [' ', '\t', '\n', '\r'] := by
  simp only [isBlank, Bool.or_eq_true, beq_iff_eq, List.mem_cons, List.not_mem_nil, or_false]
  grind

theorem isBlank_of_mem {pad : Blanks} {c : Char} (h : c ∈ pad.val) : isBlank c :=
  isBlank_iff.mpr (pad.property c h)

-- Blanks in front of a text do not matter.
def IgnoresBlanks (reader : Reader α) : Prop :=
  ∀ (pad : Blanks) (text : List Char), reader (pad.val ++ text) = reader text

theorem ignoresBlanks_peekToken : IgnoresBlanks peekToken := by
  intro pad text
  have hblank : blank (pad.val ++ text) = blank text := by
    simp only [blank, List.dropWhile_append_of_pos fun _ => isBlank_of_mem]
  simp only [peekToken, bind, StateT.bind, hblank]

theorem IgnoresBlanks.bind {reader : Reader α} (h : IgnoresBlanks reader) (f : α → Reader β) :
    IgnoresBlanks (reader >>= f) := by
  intro pad text
  simp only [Bind.bind, StateT.bind, h pad text]

theorem IgnoresBlanks.run? {reader : Reader α} (h : IgnoresBlanks reader) (pad : Blanks)
    (text : List Char) : reader.run? (pad.val ++ text) = reader.run? text := by
  rw [Reader.run?, h pad text, Reader.run?]

-- A blank behind a number ends it.
theorem endsNumber_blanks (pad : Blanks) {rest : List Char} (h : EndsNumber rest) :
    EndsNumber (pad.val ++ rest) := by
  obtain ⟨cs, hcs⟩ := pad
  cases cs with
  | nil => exact h
  | cons c cs =>
      have hc := hcs c List.mem_cons_self
      simp only [List.mem_cons, List.not_mem_nil, or_false] at hc
      apply endsNumber_cons
      rcases hc with rfl | rfl | rfl | rfl <;> decide

-- The text alone decides what the reader makes of it, a value or a failure. What comes behind it is
-- left.
def Settles (reader : Reader α) (text : List Char) (outcome : Option α) : Prop :=
  ∀ rest, EndsNumber rest → reader.run? (text ++ rest) = outcome.map (·, rest)

section Settles

variable {reader : Reader α} {text rest : List Char} {outcome : Option α}

theorem Takes.settles {a : α} (h : Takes reader text a) : Settles reader text (some a) :=
  fun rest hrest => run?_of_ok (h rest hrest)

theorem Settles.run?_bind (h : Settles reader text outcome) (hrest : EndsNumber rest)
    (f : α → Reader β) :
    (reader >>= f).run? (text ++ rest) = outcome.bind fun a => (f a).run? rest := by
  rw [Reader.run?_bind, h rest hrest]
  cases outcome <;> rfl

-- A reader that takes nothing more settles what the one before it has settled.
theorem Settles.bind {f : α → Reader β} {g : α → Option β} (h : Settles reader text outcome)
    (hf : ∀ a rest, (f a).run? rest = (g a).map (·, rest)) :
    Settles (reader >>= f) text (outcome.bind g) := by
  intro rest hrest
  rw [h.run?_bind hrest]
  cases outcome with
  | none => rfl
  | some a => exact hf a rest

theorem Settles.map (h : Settles reader text outcome) (f : α → β) :
    Settles (f <$> reader) text (outcome.map f) := by
  intro rest hrest
  rw [run?_map, h rest hrest]
  cases outcome <;> rfl

theorem Settles.blanks (h : Settles reader text outcome) (hblanks : IgnoresBlanks reader)
    (pad : Blanks) : Settles reader (pad.val ++ text) outcome := by
  intro rest hrest
  rw [List.append_assoc, hblanks.run?, h rest hrest]

end Settles

end DashboardScript.Json.Reader
