import DashboardScript.Proofs.Json.Acceptance
import DashboardScript.Proofs.Json.Rooms

namespace DashboardScript.Json

open Grammar Reader

namespace Record

variable {types : List Type} {fields : Row Field types}

section Named

theorem fromTexts?_unknown {p : String × List Char} (h : p.1 ∉ keys types fields)
    (texts : List (String × List Char)) :
    fromTexts? types fields (p :: texts) = fromTexts? types fields texts := by
  have hstep : fillText types fields (emptySlots types) p = some (emptySlots types) :=
    fill_unknown h (emptySlots types) p.2
  rw [fromTexts?, List.foldlM_cons, hstep]
  rfl

theorem length_keys (types : List Type) (fields : Row Field types) :
    (keys types fields).length = types.length := by
  induction types with
  | nil => rfl
  | cons α types ih =>
      obtain ⟨field, fields⟩ := fields
      exact congrArg (· + 1) (ih fields)

-- The items of an array mean what members under the keys of the first fields mean.
theorem place_eq_fromTexts? (hnodup : (keys types fields).Nodup) {items : List ItemText}
    (hlength : items.length ≤ types.length) :
    place types fields items =
      fromTexts? types fields ((keys types fields).zip (items.map ItemText.value)) := by
  induction types generalizing items with
  | nil =>
      obtain rfl := List.length_eq_zero_iff.mp (Nat.le_zero.mp hlength)
      rfl
  | cons α types ih =>
      obtain ⟨field, fields⟩ := fields
      obtain ⟨hnot, hnodup⟩ := List.nodup_cons.mp hnodup
      rw [fromTexts?_cons hnot]
      cases items with
      | nil =>
          have hrest := @ih fields hnodup [] (Nat.zero_le types.length)
          have hfield : field.valueOf? [] = field.absent := rfl
          rw [List.map_nil, List.zip_nil_right] at hrest
          rw [List.map_nil, List.zip_nil_right, ← hrest, hfield, place]
          cases field.absent <;> cases place types fields [] <;> rfl
      | cons i items =>
          have hrest := ih hnodup (Nat.le_of_succ_le_succ hlength)
          have hother : ∀ p ∈ [] ++ (keys types fields).zip (items.map ItemText.value),
              p.1 ≠ field.key := by
            rintro ⟨key, text⟩ hp rfl
            exact hnot (List.of_mem_zip hp).1
          have hfield : field.valueOf? ((field.key, i.value) ::
              (keys types fields).zip (items.map ItemText.value)) = field.value.value? i.value :=
            Field.valueOf?_only hother (some i.value)
          rw [keys, List.map_cons, List.zip_cons_cons, fromTexts?_unknown hnot, ← hrest, hfield,
            place]
          cases field.value.value? i.value <;> cases place types fields items <;> rfl

end Named

-- An array is no longer than the record, and no required field is behind its end.
theorem length_le_of_place {items : List ItemText} {row : Row Id types}
    (h : place types fields items = some row) :
    items.length ≤ types.length ∧
      ∀ slot ∈ (slots types fields).drop items.length, slot.field.absent ≠ none := by
  induction types generalizing items with
  | nil =>
      cases items with
      | nil => exact ⟨Nat.le_refl 0, by simp [slots]⟩
      | cons => cases h
  | cons α types ih =>
      obtain ⟨field, fields⟩ := fields
      cases items with
      | nil =>
          rw [place, Option.bind_eq_bind, Option.bind_eq_some_iff] at h
          obtain ⟨a, ha, h⟩ := h
          rw [Option.bind_eq_bind, Option.bind_eq_some_iff] at h
          obtain ⟨rest, hrest, -⟩ := h
          refine ⟨Nat.zero_le _, ?_⟩
          rw [List.length_nil, List.drop_zero, slots, List.forall_mem_cons, List.forall_mem_map]
          exact ⟨by simp [ha], (ih hrest).2⟩
      | cons i items =>
          rw [place, Option.bind_eq_bind, Option.bind_eq_some_iff] at h
          obtain ⟨a, -, h⟩ := h
          rw [Option.bind_eq_bind, Option.bind_eq_some_iff] at h
          obtain ⟨rest, hrest, -⟩ := h
          obtain ⟨hlength, habsent⟩ := ih hrest
          refine ⟨Nat.succ_le_succ hlength, ?_⟩
          rw [List.length_cons, slots, List.drop_succ_cons, ← List.map_drop, List.forall_mem_map]
          exact habsent

end Record

namespace Shape

variable {α : Type} {shape : Shape α} {room : Nat}

-- An array is decoded item by item, with one level less for its items.
theorem settles_decoder_array (h : Record.Steady shape.types shape.fields) (pad : Blanks)
    {items : List ItemText} (hitems : ∀ i ∈ items, ∃ depth, IsValue depth i.value) :
    Settles (shape.decoder (room + 1)) (bracketedText pad items)
      ((Record.place shape.types (Record.within room shape.types shape.fields) items).map
        shape.make) := by
  have hparts : ∀ i ∈ items, Begins i.value ∧ Record.Reads room i.value shape.types
      (Record.within room shape.types shape.fields) := by
    intro i hi
    obtain ⟨depth, hvalue⟩ := hitems i hi
    exact ⟨hvalue.begins, Record.reads_within h hvalue room⟩
  have hread := (Record.settles_positional shape.lengthDescription pad hparts).map shape.make
  rw [Record.positional_within] at hread
  intro rest hrest
  rw [← hread rest hrest]
  exact run?_bind_of_ok _ (next_bracket _)

-- Neither is decoded without a level left.
theorem settles_decoder_zero {text : List Char}
    (h : ∃ tail, text = '[' :: tail ∨ text = '\x7b' :: tail) :
    Settles (shape.decoder 0) text none := by
  obtain ⟨tail, rfl | rfl⟩ := h
  · exact fun rest _ => run?_bind_of_ok _ (next_bracket _)
  · exact fun rest _ => run?_bind_of_ok _ (next_brace _)

end Shape

end DashboardScript.Json
