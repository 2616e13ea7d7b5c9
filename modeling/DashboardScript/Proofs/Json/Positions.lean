import DashboardScript.Json.Reader
import Mathlib.Data.List.Induction

namespace DashboardScript.Json

open Text (utf8Length)

theorem utf8Length_append (first second : List Char) :
    utf8Length (first ++ second) = utf8Length first + utf8Length second := by
  induction first with
  | nil => exact (Nat.zero_add _).symm
  | cons c first ih =>
      change c.utf8Size + utf8Length (first ++ second) = c.utf8Size + utf8Length first + _
      rw [ih, Nat.add_assoc]

namespace Position

-- The place of the byte that comes behind a text. Lines and the bytes of a line count from one.
def behind (text : List Char) : Position where
  line := text.count '\n' + 1
  column := utf8Length (text.reverse.takeWhile (· ≠ '\n')) + 1

example : behind "a\n\u00e9 ".toList = ⟨2, 4⟩ := by decide

-- A position that is moved past a whole character.
def past (p : Position) (c : Char) : Position :=
  if c = '\n' then ⟨p.line + 1, 0⟩ else ⟨p.line, p.column + c.utf8Size⟩

theorem moved_append (p : Position) (before rest : List Char) (count : Nat) :
    p.moved (utf8Length before + count) (before ++ rest) =
      (before.foldl past p).moved count rest := by
  induction before generalizing p with
  | nil => exact congrArg (p.moved · rest) (Nat.zero_add count)
  | cons c before ih =>
      have hsize := c.utf8Size_pos
      change p.moved (c.utf8Size + utf8Length before + count) (c :: (before ++ rest)) = _
      obtain ⟨size, hsize⟩ := Nat.exists_eq_add_of_lt hsize
      rw [List.foldl_cons, ← ih, past]
      have hcount : c.utf8Size + utf8Length before + count =
          size + utf8Length before + count + 1 := by
        omega
      rw [hcount, moved]
      split
      case isTrue hline =>
        subst hline
        have hone : size = 0 := by
          have : ('\n' : Char).utf8Size = 1 := by decide
          omega
        rw [hone, Nat.zero_add]
      case isFalse hline =>
        rw [if_neg (by omega)]
        congr 1
        omega

theorem foldl_past (text : List Char) :
    text.foldl past ⟨1, 0⟩ =
      ⟨text.count '\n' + 1, utf8Length (text.reverse.takeWhile (· ≠ '\n'))⟩ := by
  induction text using List.reverseRecOn with
  | nil => rfl
  | append_singleton text c ih =>
      rw [List.foldl_append, ih]
      by_cases hline : c = '\n'
      · subst hline
        simp [past, utf8Length]
      · simp [past, hline, utf8Length, Nat.add_comm]

-- An offence that is the next byte stands behind all that was taken.
theorem moved_next {c : Char} (hline : c ≠ '\n') (before tail : List Char) :
    moved ⟨1, 0⟩ (utf8Length before + 1) (before ++ c :: tail) = behind before := by
  rw [moved_append, foldl_past, moved, if_neg hline, behind]
  have hsize := c.utf8Size_pos
  split
  case isTrue => rfl
  case isFalse hlt =>
    have hone : c.utf8Size = 1 := by omega
    rw [hone]
    cases tail <;> rfl

end Position

theorem Failure.error_next {c : Char} (hline : c ≠ '\n') (cause : Cause) (before tail : List Char) :
    Failure.error ⟨cause, utf8Length (c :: tail), true⟩ (before ++ c :: tail) =
      ⟨cause, .behind before⟩ := by
  have hsize := c.utf8Size_pos
  have hcount : utf8Length (before ++ c :: tail) - (utf8Length (c :: tail) - 1) =
      utf8Length before + 1 := by
    rw [utf8Length_append]
    change _ + (c.utf8Size + utf8Length tail) - (c.utf8Size + utf8Length tail - 1) = _
    omega
  rw [Failure.error, Failure.behind, if_pos rfl, hcount, Position.moved_next hline]

end DashboardScript.Json
