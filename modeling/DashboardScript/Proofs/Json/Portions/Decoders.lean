import DashboardScript.Proofs.Json.Closure
import DashboardScript.Proofs.Json.Portions.Containers

namespace DashboardScript.Json

open Reader

namespace Decoder

-- A decoder that goes through its text from left to right, and misses a value where there is none.
structure Orderly {α : Type} (decoder : Decoder α) : Prop where
  ends : ∀ room, EndsEarly (decoder room) []
  sequential : ∀ room, Sequential true .outside .outside (decoder room)

section Scalars

variable {α : Type} {f : Found → Reader α}

theorem endsEarly_next (f : Found → Reader α) : EndsEarly (next >>= f) [] :=
  (endsEarly_failNext .value []).bind f

-- What is taken of scalars alone.
theorem sequential_scalar (hscalar : ∀ found, (∃ a, f found = pure a) ∨
      ∀ text, (f found).run? text = none)
    (hlist : ∀ text, (f .sequence).run? text = none) (hmap : ∀ text, (f .map).run? text = none) :
    Sequential true .outside .outside (next >>= f) := by
  refine sequential_next (fun found _ => ?_) (follows_of_none fun _ => hlist _)
    (follows_of_none fun _ => hmap _)
  rcases hscalar found with ⟨a, ha⟩ | hnone
  · exact ha ▸ sequential_pure .outside a
  · exact sequential_of_none hnone

theorem orderly_text : Orderly text where
  ends _ := endsEarly_next _
  sequential _ := by
    refine sequential_scalar (fun found => ?_) (fun _ => rfl) fun _ => rfl
    cases found
    case string s => exact .inl ⟨s, rfl⟩
    all_goals exact .inr fun _ => rfl

theorem orderly_flag : Orderly flag where
  ends _ := endsEarly_next _
  sequential _ := by
    refine sequential_scalar (fun found => ?_) (fun _ => rfl) fun _ => rfl
    cases found
    case boolean b => exact .inl ⟨b, rfl⟩
    all_goals exact .inr fun _ => rfl

theorem orderly_word : Orderly word where
  ends _ := endsEarly_next _
  sequential _ := by
    refine sequential_scalar (fun found => ?_) (fun _ => rfl) fun _ => rfl
    cases found
    case number n =>
      cases n with
      | real => exact .inr fun _ => rfl
      | integer n =>
          dsimp only
          split
          · exact .inl ⟨_, rfl⟩
          · exact .inr fun _ => rfl
    all_goals exact .inr fun _ => rfl

theorem run?_nested_none {inner : Decoder α} (h : ∀ room text, (inner room).run? text = none)
    (room : Nat) (text : List Char) : (nested inner room).run? text = none := by
  cases room with
  | zero => rfl
  | succ room => exact h room text

theorem orderly_number : Orderly number where
  ends _ := endsEarly_next _
  sequential room := by
    have hlist : ∀ text, (nested (fun _ => do
        advance
        failList (.invalidType .sequence "a JSON number")) room : Reader Number).run? text = none :=
      run?_nested_none (fun _ => run?_bind_none (fun _ => run?_failList _) advance) room
    have hmap : ∀ text, (nested (fun _ => do
        advance
        failObject (.invalidType .map "a JSON number")) room : Reader Number).run? text = none :=
      run?_nested_none (fun _ => run?_bind_none (fun _ => run?_failObject _) advance) room
    refine sequential_scalar (fun found => ?_) hlist hmap
    cases found
    case number n => exact .inl ⟨n, rfl⟩
    case sequence => exact .inr hlist
    case map => exact .inr hmap
    all_goals exact .inr fun _ => rfl

end Scalars

section Composite

variable {α : Type}

theorem follows_nested {first : Char} {ahead : Bool} {inner : Decoder α}
    (h : ∀ room, Follows first ahead .outside .outside (inner room)) (room : Nat) :
    Follows first ahead .outside .outside (nested inner room) := by
  cases room with
  | zero => exact follows_of_none fun _ => rfl
  | succ room => exact h room

theorem Orderly.ends_some {value : Decoder α} (h : Orderly value) (room : Nat) :
    EndsEarly (some <$> value room) [] := by
  rw [← bind_pure_comp]
  exact (h.ends room).bind _

theorem orderly_optional {value : Decoder α} (h : Orderly value) : Orderly (optional value) where
  ends room := endsEarly_of_eq rfl (h.ends_some room)
  sequential room := by
    refine sequential_peekToken (h.ends_some room) fun c _ => ?_
    split
    case isTrue =>
      have hnull : Sequential true .outside .outside (do
          let _ ← next
          pure (none : Option α)) :=
        sequential_next (fun _ _ => sequential_pure _ _) ((sequential_pure _ _).follows _)
          ((sequential_pure _ _).follows _)
      exact hnull.follows c
    case isFalse => exact ((h.sequential room).map some).follows c

theorem orderly_list {item : Decoder α} (h : Orderly item) : Orderly (list item) where
  ends _ := endsEarly_next _
  sequential room := by
    refine sequential_next (fun found hscalar => ?_) ?_ (follows_of_none fun _ => rfl)
    · cases found
      case sequence => exact absurd rfl hscalar.1
      all_goals exact sequential_of_none fun _ => rfl
    · exact follows_nested (fun room => (follows_bracketed (h.sequential room)).look) room

theorem orderly_any : Orderly any where
  ends room := any_eq room ▸ endsEarly_next _
  sequential room := by
    have hscalar : ∀ room found, Found.IsScalar found →
        Sequential true .outside .outside (anyBrackets room found) := by
      intro room found hfound
      cases found
      case sequence => exact absurd rfl hfound.1
      case map => exact absurd rfl hfound.2
      all_goals exact sequential_pure _ _
    induction room with
    | zero =>
        rw [any_eq]
        exact sequential_next (hscalar 0) (follows_of_none fun _ => rfl)
          (follows_of_none fun _ => rfl)
    | succ room ih =>
        rw [any_eq]
        refine sequential_next (hscalar (room + 1)) ?_ ?_
        · exact ((follows_bracketed ih).map Value.array).look
        · refine ((follows_braced (fun members key => ?_) []).map Value.object).look
          refine sequential_colon.look.bind fun _ => ?_
          exact ih.bind fun _ => sequential_pure _ _

end Composite

end Decoder

namespace Record

variable {types : List Type} {fields : Row Field types}

-- What fills the slots goes on from left to right behind the key.
def Meaning.Orderly {σ : Type} : Meaning σ → Prop
  | .fills slots => Sequential true .outside .outside slots
  | _ => True

theorem orderly_meaning (h : Every Decoder.Orderly types fields) (room : Nat) (key : String)
    (slots : Row Option types) : (meaning room key types fields slots).Orderly := by
  induction types with
  | nil => trivial
  | cons α types ih =>
      obtain ⟨field, fields⟩ := fields
      obtain ⟨slot, slots⟩ := slots
      obtain ⟨hfield, hfields⟩ := h
      unfold meaning
      split
      · cases slot with
        | some a => trivial
        | none => exact (hfield.sequential room).bind fun _ => sequential_pure _ _
      · have hrest := ih hfields slots
        cases hmeaning : meaning room key types fields slots with
        | fills value =>
            rw [hmeaning] at hrest
            exact hrest.map _
        | unknown => trivial
        | repeated => trivial

theorem sequential_member (h : Every Decoder.Orderly types fields) (room : Nat)
    (slots : Row Option types) (key : String) :
    Sequential true .outside .outside (member fields room slots key) := by
  have hmeaning := orderly_meaning h room key slots
  unfold member
  cases hcase : meaning room key types fields slots with
  | unknown =>
      refine sequential_colon.look.bind fun _ => sequential_skipValue.bind fun _ => ?_
      exact sequential_pure _ _
  | repeated => exact sequential_of_none fun text => run?_failObject _ text
  | fills value =>
      rw [hcase] at hmeaning
      exact sequential_colon.look.bind fun _ => hmeaning

theorem follows_keyed (h : Every Decoder.Orderly types fields) (room : Nat) :
    Follows '\x7b' false .outside .outside (keyed fields room) := by
  refine (follows_braced (sequential_member h room) _).check fun slots => ?_
  cases complete types fields slots with
  | ok row => exact .inl ⟨row, rfl⟩
  | error key => exact .inr fun _ => rfl

theorem sequential_elements (h : Every Decoder.Orderly types fields) (expected : String)
    (room index : Nat) :
    Sequential true .outside .outside (elements expected room types fields index) := by
  induction types generalizing index with
  | nil => exact sequential_pure _ _
  | cons α types ih =>
      obtain ⟨field, fields⟩ := fields
      obtain ⟨hfield, hfields⟩ := h
      refine sequential_hasItem (index == 0) ?_ ?_
      · refine (hfield.sequential room).bind fun a => (ih hfields (index + 1)).bind fun rest => ?_
        exact sequential_pure _ _
      · rw [if_neg Bool.false_ne_true]
        cases field.absent with
        | some a =>
            exact ((ih hfields (index + 1)).bind fun rest => sequential_pure _ _).follows _
        | none => exact follows_of_none fun tail => run?_failList _ _

theorem follows_positional (h : Every Decoder.Orderly types fields) (expected : String)
    (room : Nat) : Follows '[' false .outside .outside (positional expected fields room) := by
  refine (follows_token (by decide)).look.bind fun _ => ?_
  refine (sequential_elements h expected room 0).bind fun row => ?_
  exact sequential_closeList.check (checks_pure fun _ => row)

end Record

namespace Shape

variable {α : Type} {shape : Shape α}

-- A record ends with its closing bracket, whatever comes behind.
theorem sequential_decoder (h : Record.Every Decoder.Orderly shape.types shape.fields)
    (room : Nat) : Sequential false .outside .outside (shape.decoder room) := by
  refine sequential_next (fun found hscalar => ?_) ?_ ?_
  · cases found
    case sequence => exact absurd rfl hscalar.1
    case map => exact absurd rfl hscalar.2
    all_goals exact sequential_of_none fun _ => rfl
  · exact (Decoder.follows_nested (Record.follows_positional h _) room).map shape.make
  · exact (Decoder.follows_nested (Record.follows_keyed h) room).map shape.make

theorem orderly_decoder (h : Record.Every Decoder.Orderly shape.types shape.fields) :
    shape.decoder.Orderly where
  ends _ := Decoder.endsEarly_next _
  sequential room := (sequential_decoder h room).look

end Shape

theorem Decoder.closed_orderly : Decoder.Closed Decoder.Orderly where
  text := orderly_text
  flag := orderly_flag
  word := orderly_word
  number := orderly_number
  any := orderly_any
  optional := orderly_optional
  list := orderly_list
  record := Shape.orderly_decoder

end DashboardScript.Json
