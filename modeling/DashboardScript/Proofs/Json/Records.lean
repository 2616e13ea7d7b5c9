import DashboardScript.Json.Record
import DashboardScript.Proofs.Json.Scalars
import DashboardScript.Proofs.Json.Sequences

namespace DashboardScript.Json

open Reader

theorem arrayText_begins (texts : List String) :
    ∃ tail, (arrayText texts).toList = '[' :: tail := by
  have htext := toList_enclosed '[' ']' texts []
  rw [List.append_nil] at htext
  exact ⟨_, htext⟩

theorem objectText_begins (ms : List Member) :
    ∃ tail, (objectText ms).toList = '\x7b' :: tail := by
  have htext := toList_enclosed '\x7b' '\x7d' (ms.map Member.text) []
  rw [List.append_nil] at htext
  exact ⟨_, htext⟩

theorem isPresent_arrayText (texts : List String) : IsPresent (arrayText texts) := by
  obtain ⟨tail, htail⟩ := arrayText_begins texts
  rw [IsPresent, htail]
  simp

theorem Decoder.list_spells {α : Type} {item : Decoder α} {depth : Nat} {texts : List String}
    {values : List α} (h : List.Forall₂ (Spells item depth) texts values) :
    Spells (list item) (depth + 1) (arrayText texts) values := by
  intro room hroom
  obtain ⟨spare, rfl⟩ := Nat.exists_eq_add_of_le' hroom
  obtain ⟨tail, htail⟩ := arrayText_begins texts
  refine ⟨⟨'[', tail, htail, rfl, by decide⟩, fun rest _ => ?_⟩
  have hread := bracketed_arrayText
    (h.imp fun _ _ hitem => hitem (spare + depth) (Nat.le_add_left depth spare)) rest
  rw [htail, List.cons_append] at hread ⊢
  rw [list, bind_of_ok _ (next_bracket _)]
  exact hread

-- A member with the key spelled in the plainest way.
def Member.plain (key value : String) : Member := ⟨key, stringText key, value⟩

-- The members that have a value.
def writtenMembers (members : List (String × Option String)) : List Member :=
  members.filterMap fun member => member.2.map (Member.plain member.1)

def recordText (members : List (String × Option String)) : String :=
  objectText (writtenMembers members)

theorem isPresent_recordText (members : List (String × Option String)) :
    IsPresent (recordText members) := by
  obtain ⟨tail, htail⟩ := objectText_begins (writtenMembers members)
  rw [IsPresent, recordText, htail]
  simp

theorem writtenMembers_cons (key : String) (value : Option String)
    (members : List (String × Option String)) :
    writtenMembers ((key, value) :: members) =
      (value.map (Member.plain key)).toList ++ writtenMembers members := by
  unfold writtenMembers
  cases value <;> rfl

namespace Record

def keys : (types : List Type) → Row Field types → List String
  | [], _ => []
  | _ :: types, (field, fields) => field.key :: keys types fields

section Member

variable {α : Type} {types : List Type} {field : Field α} {fields : Row Field types} {room : Nat}

theorem failObject_map {β γ : Type} (f : β → γ) (cause : Cause) :
    f <$> (failObject cause : Reader β) = failObject cause := by
  unfold failObject
  rw [map_bind]
  congr 1
  funext c
  by_cases h : c = some '\x7d' <;> simp [h] <;> rfl

-- A member under another key leaves the first slot alone.
theorem member_cons_of_ne {slot : Option α} {slots : Row Option types} {key : String}
    (h : key ≠ field.key) :
    @member (α :: types) (field, fields) room (slot, slots) key =
      (fun slots => (slot, slots)) <$> member fields room slots key := by
  unfold member
  simp only [meaning, h, if_false]
  cases meaning room key types fields slots with
  | unknown => simp only [Meaning.map, map_bind, map_pure]
  | repeated => simp only [Meaning.map, failObject_map]
  | fills value => simp only [Meaning.map, map_bind]

theorem member_takes_head {slots : Row Option types} {text : List Char} {a : α}
    (h : Takes (field.value room) text a) :
    Takes (@member (α :: types) (field, fields) room (none, slots) field.key) (':' :: text)
      (some a, slots) := by
  intro rest hrest
  unfold member
  simp only [meaning, if_true]
  rw [List.cons_append, bind_of_ok _ (colon_run _), bind_of_ok _ (h rest hrest), pure_run]

theorem folds_cons_of_ne {slot : Option α} {slots final : Row Option types} {ms : List Member}
    (h : Folds (member fields room) slots ms final) (hne : ∀ m ∈ ms, m.key ≠ field.key) :
    Folds (@member (α :: types) (field, fields) room) (slot, slots) ms (slot, final) := by
  induction h with
  | nil slots => exact .nil _
  | cons hkey htakes hrest ih =>
      refine .cons hkey (fun rest hends => ?_) (ih fun m hm => hne m (List.mem_cons_of_mem _ hm))
      rw [member_cons_of_ne (hne _ List.mem_cons_self)]
      exact map_of_ok _ (htakes rest hends)

end Member

end Record

-- A member that spells the value of a field, or none where the field can do without.
def Field.SpelledAs {α : Type} (field : Field α) (depth : Nat) (text : Option String) (a : α) :
    Prop :=
  match text with
  | some text => Decoder.Spells field.value depth text a
  | none => field.absent = some a

-- Absence of an optional value is told from every value by its not being written.
theorem optional_spelledAs {α : Type} {decoder : Decoder α} {depth : Nat} {key : String}
    {write : α → String} {value : Option α}
    (h : ∀ a ∈ value, Decoder.Spells decoder depth (write a) a ∧ IsPresent (write a)) :
    (⟨key, Decoder.optional decoder, some none⟩ : Field (Option α)).SpelledAs depth
      (value.map write) value := by
  cases value with
  | none => rfl
  | some a => exact Decoder.optional_some (h a rfl).1 (h a rfl).2

namespace Record

-- The members spell the values of the fields one by one.
def Spelled (depth : Nat) : (types : List Type) → Row Field types →
    List (String × Option String) → Row Id types → Prop
  | [], _, members, _ => members = []
  | _ :: _, _, [], _ => False
  | _ :: types, (field, fields), (key, text) :: members, (a, row) =>
    key = field.key ∧ field.SpelledAs depth text a ∧ Spelled depth types fields members row

theorem key_mem_of_spelled {depth : Nat} {types : List Type} {fields : Row Field types}
    {members : List (String × Option String)} {row : Row Id types}
    (h : Spelled depth types fields members row) :
    ∀ m ∈ writtenMembers members, m.key ∈ keys types fields := by
  induction types generalizing members with
  | nil =>
      intro m hm
      rw [show members = [] from h] at hm
      exact absurd hm List.not_mem_nil
  | cons α types ih =>
      cases members with
      | nil => exact absurd h id
      | cons first members =>
          obtain ⟨key, text⟩ := first
          obtain ⟨rfl, -, hrest⟩ := h
          intro m hm
          rw [writtenMembers_cons, List.mem_append, Option.mem_toList] at hm
          rcases hm with hfirst | hrest'
          · obtain ⟨value, -, rfl⟩ := Option.map_eq_some_iff.mp hfirst
            exact List.mem_cons_self
          · exact List.mem_cons_of_mem _ (ih hrest m hrest')

-- Each member fills the slot of its own field, so at the end no required slot is empty.
theorem folds_of_spelled {depth room : Nat} (hroom : depth ≤ room) {types : List Type}
    {fields : Row Field types} {members : List (String × Option String)} {row : Row Id types}
    (h : Spelled depth types fields members row) (hnodup : (keys types fields).Nodup) :
    ∃ slots, Folds (member fields room) (emptySlots types) (writtenMembers members) slots ∧
      complete types fields slots = .ok row := by
  induction types generalizing members with
  | nil =>
      rw [show members = [] from h]
      exact ⟨(), .nil _, rfl⟩
  | cons α types ih =>
      cases members with
      | nil => exact absurd h id
      | cons first members =>
          obtain ⟨key, text⟩ := first
          obtain ⟨field, fields⟩ := fields
          obtain ⟨a, row⟩ := row
          obtain ⟨rfl, hfield, hrest⟩ := h
          obtain ⟨hnot, hnodup⟩ := List.nodup_cons.mp hnodup
          obtain ⟨slots, hfolds, hcomplete⟩ := ih hrest hnodup
          have hne : ∀ m ∈ writtenMembers members, m.key ≠ field.key := by
            intro m hm hkey
            exact hnot (hkey ▸ key_mem_of_spelled hrest m hm)
          rw [writtenMembers_cons]
          cases text with
          | none =>
              have habsent : field.absent = some a := hfield
              refine ⟨(none, slots), folds_cons_of_ne hfolds hne, ?_⟩
              simp only [complete, Option.none_or, habsent, hcomplete]
              rfl
          | some text =>
              have htakes := (show Decoder.Spells field.value depth text a from hfield) room hroom
              refine ⟨(some a, slots), ?_, ?_⟩
              · exact .cons (spellsKey_stringText field.key) (member_takes_head htakes.takes)
                  (folds_cons_of_ne hfolds hne)
              · simp only [complete, Option.some_or, hcomplete]
                rfl

end Record

-- A record is read back from an object with a member for each field that has to have one.
theorem Shape.decoder_spells {α : Type} (shape : Shape α) {depth : Nat}
    {members : List (String × Option String)} (row : Row Id shape.types)
    (hnodup : (Record.keys shape.types shape.fields).Nodup)
    (h : Record.Spelled depth shape.types shape.fields members row) :
    Decoder.Spells shape.decoder (depth + 1) (recordText members) (shape.make row) := by
  intro room hroom
  obtain ⟨spare, rfl⟩ := Nat.exists_eq_add_of_le' hroom
  obtain ⟨slots, hfolds, hcomplete⟩ :=
    Record.folds_of_spelled (Nat.le_add_left depth spare) h hnodup
  obtain ⟨tail, htail⟩ := objectText_begins (writtenMembers members)
  refine ⟨⟨'\x7b', tail, htail, rfl, by decide⟩, fun rest _ => ?_⟩
  have hread : Record.keyed shape.fields (spare + depth) ((recordText members).toList ++ rest) =
      .ok (row, rest) := by
    rw [Record.keyed, recordText, bind_of_ok _ (braced_objectText hfolds rest)]
    simp only [hcomplete]
    rfl
  have hmade := map_of_ok shape.make hread
  rw [recordText, htail, List.cons_append] at hmade ⊢
  rw [Shape.decoder, bind_of_ok _ (next_brace _)]
  exact hmade

end DashboardScript.Json
