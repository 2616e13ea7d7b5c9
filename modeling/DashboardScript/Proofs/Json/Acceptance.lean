import DashboardScript.Proofs.Json.Slots

namespace DashboardScript.Json

open Grammar Reader

-- A member that may stand in a record. Its key is spelled in any way that means a string, and its
-- value is any value with few enough levels.
structure NamedMember extends MemberText where
  name : String
  spells : toMemberText.key? = some name
  valid : IsValue (Decoder.maxDepth - 1) value

-- The members under the key of a field.
def Field.own {α : Type} (field : Field α) (ms : List NamedMember) : List NamedMember :=
  ms.filter fun m => m.name = field.key

-- A null under the key h, which is written as a code.
example : NamedMember where
  before := ⟨[' '], by simp⟩
  key := [.code ⟨0, false⟩ ⟨0, false⟩ ⟨6, false⟩ ⟨8, false⟩]
  gap := ⟨[], by simp⟩
  lead := ⟨['\n'], by simp⟩
  value := ['n', 'u', 'l', 'l']
  after := ⟨[], by simp⟩
  name := "h"
  spells := by decide
  valid := .null _

-- The text of the value on its own.
def NamedMember.valueText (m : NamedMember) : String := String.ofList m.value

-- The members under some names, by name and value.
def knownOf (names : List String) (ms : List NamedMember) : List (String × List Char) :=
  (ms.map fun m => (m.name, m.value)).filter fun p => p.1 ∈ names

-- What the members give for a field: the value of the only member under its key, or without one what
-- stands for its absence.
def Field.given? {α : Type} (field : Field α) (ms : List NamedMember) : Option α :=
  match field.own ms with
  | [] => field.absent
  | [m] => field.value.value? m.value
  | _ => none

-- The texts that stand for the field, of texts by the name of their member.
def Field.values {α : Type} (field : Field α) (texts : List (String × List Char)) :
    List (List Char) :=
  (texts.filter fun p => p.1 = field.key).map Prod.snd

def Field.valueOf? {α : Type} (field : Field α) (texts : List (String × List Char)) : Option α :=
  match field.values texts with
  | [] => field.absent
  | [text] => field.value.value? text
  | _ => none

theorem Field.given?_eq_valueOf? {α : Type} (field : Field α) (ms : List NamedMember) :
    field.given? ms = field.valueOf? (ms.map fun m => (m.name, m.value)) := by
  have hown : field.values (ms.map fun m => (m.name, m.value)) = (field.own ms).map (·.value) := by
    rw [values, List.filter_map, List.map_map, own]
    rfl
  rw [given?, valueOf?, hown]
  rcases field.own ms with _ | ⟨m, _ | ⟨n, rest⟩⟩ <;> rfl

namespace Record

section Fold

variable {α : Type} {types : List Type} {field : Field α} {fields : Row Field types}

-- What a member makes of the slot of one field.
def fillSlot (field : Field α) (slot : Option α) (p : String × List Char) : Option (Option α) :=
  if p.1 = field.key then
    match slot with
    | some _ => none
    | none => (field.value.value? p.2).map some
  else some slot

def fillText (types : List Type) (fields : Row Field types) (slots : Row Option types)
    (p : String × List Char) : Option (Row Option types) :=
  fill types fields slots p.1 p.2

-- The values that a record takes from such members.
def fromTexts? (types : List Type) (fields : Row Field types) (texts : List (String × List Char)) :
    Option (Row Id types) :=
  (texts.foldlM (fillText types fields) (emptySlots types)).bind fun slots =>
    (complete types fields slots).toOption

theorem fill_unknown {key : String} (h : key ∉ keys types fields) (slots : Row Option types)
    (text : List Char) : fill types fields slots key text = some slots := by
  induction types with
  | nil => rfl
  | cons α types ih =>
      obtain ⟨field, fields⟩ := fields
      obtain ⟨slot, slots⟩ := slots
      rw [keys, List.mem_cons, not_or] at h
      simp only [fill, h.1, if_false, ih h.2, Option.map_some]

-- A member fills the slots of a record field by field, as a key is that of one field at most.
theorem fillText_cons (h : field.key ∉ keys types fields) (slot : Option α)
    (slots : Row Option types) (p : String × List Char) :
    @fillText (α :: types) (field, fields) (slot, slots) p =
      (fillSlot field slot p).bind fun slot =>
        (fillText types fields slots p).map fun slots => (slot, slots) := by
  unfold fillText fillSlot
  by_cases hkey : p.1 = field.key
  · simp only [fill, hkey, if_true, fill_unknown h, Option.map_some]
    cases slot with
    | some a => rfl
    | none => cases field.value.value? p.2 <;> rfl
  · simp only [fill, hkey, if_false, Option.bind_some]

theorem foldlM_fillText_cons (h : field.key ∉ keys types fields)
    (texts : List (String × List Char)) (slot : Option α) (slots : Row Option types) :
    texts.foldlM (@fillText (α :: types) (field, fields)) (slot, slots) =
      (texts.foldlM (fillSlot field) slot).bind fun slot =>
        (texts.foldlM (fillText types fields) slots).map fun slots => (slot, slots) := by
  induction texts generalizing slot slots with
  | nil => rfl
  | cons p texts ih =>
      simp only [List.foldlM_cons, fillText_cons h]
      cases fillSlot field slot p with
      | none => rfl
      | some first =>
          cases fillText types fields slots p with
          | none => cases texts.foldlM (fillSlot field) first <;> simp
          | some rest => exact ih first rest

theorem values_cons (p : String × List Char) (texts : List (String × List Char)) :
    field.values (p :: texts) =
      if p.1 = field.key then p.2 :: field.values texts else field.values texts := by
  rw [Field.values, List.filter_cons]
  by_cases hkey : p.1 = field.key <;> simp [Field.values, hkey]

-- A slot that is filled refuses another member under its key.
theorem foldlM_fillSlot_some (a : α) (texts : List (String × List Char)) :
    texts.foldlM (fillSlot field) (some a) =
      match field.values texts with
      | [] => some (some a)
      | _ => none := by
  induction texts with
  | nil => rfl
  | cons p texts ih =>
      rw [values_cons, List.foldlM_cons, fillSlot]
      by_cases hkey : p.1 = field.key
      · simp only [hkey, if_true]
        rfl
      · simp only [hkey, if_false]
        exact ih

theorem foldlM_fillSlot_none (texts : List (String × List Char)) :
    texts.foldlM (fillSlot field) none =
      match field.values texts with
      | [] => some none
      | [text] => (field.value.value? text).map some
      | _ => none := by
  induction texts with
  | nil => rfl
  | cons p texts ih =>
      rw [values_cons, List.foldlM_cons, fillSlot]
      by_cases hkey : p.1 = field.key
      · simp only [hkey, if_true]
        cases hread : field.value.value? p.2 with
        | none =>
            cases field.values texts with
            | nil => exact congrArg (Option.map some) hread.symm
            | cons text rest => rfl
        | some a =>
            refine (foldlM_fillSlot_some a texts).trans ?_
            cases field.values texts with
            | nil => exact congrArg (Option.map some) hread.symm
            | cons text rest => rfl
      · simp only [hkey, if_false]
        exact ih

theorem valueOf?_eq (texts : List (String × List Char)) :
    field.valueOf? texts = (texts.foldlM (fillSlot field) none).bind (·.or field.absent) := by
  rw [foldlM_fillSlot_none, Field.valueOf?]
  rcases field.values texts with _ | ⟨text, _ | ⟨next, rest⟩⟩
  · exact (Option.none_or ..).symm
  · cases hread : field.value.value? text <;> simp [hread]
  · rfl

-- A record takes what the members give for each of its fields.
theorem fromTexts?_cons (h : field.key ∉ keys types fields) (texts : List (String × List Char)) :
    fromTexts? (α :: types) (field, fields) texts =
      (field.valueOf? texts).bind fun a =>
        (fromTexts? types fields texts).map fun row => (a, row) := by
  rw [fromTexts?, fromTexts?, valueOf?_eq, emptySlots, foldlM_fillText_cons h]
  cases texts.foldlM (fillSlot field) none with
  | none => rfl
  | some slot =>
      cases texts.foldlM (fillText types fields) (emptySlots types) with
      | none => cases slot.or field.absent <;> simp
      | some slots =>
          simp only [Option.bind_some, Option.map_some, complete]
          cases slot.or field.absent with
          | none => rfl
          | some a => cases complete types fields slots <;> rfl

-- Of members with a name, a record sees the name and the text of the value.
theorem keyed?_eq_fromTexts? {μ : Type} {write : μ → MemberText} {name : μ → String}
    (h : ∀ m, (write m).key? = some (name m)) (ms : List μ) :
    keyed? types fields (ms.map write) =
      fromTexts? types fields (ms.map fun m => (name m, (write m).value)) := by
  have hstep : ∀ slots m, fillBy types fields slots (write m) =
      fillText types fields slots (name m, (write m).value) := by
    intro slots m
    rw [fillBy, stepBy, h m]
    rfl
  rw [keyed?, fromTexts?, List.foldlM_map, List.foldlM_map]
  simp only [hstep]

end Fold

end Record

-- A field together with the part of a record that it gives.
structure Slot (α : Type) where
  type : Type
  field : Field type
  part : α → type

-- The same part of what is made from another record.
def Slot.comap {α β : Type} (f : β → α) (slot : Slot α) : Slot β :=
  ⟨slot.type, slot.field, slot.part ∘ f⟩

namespace Record

-- The fields of a record by position.
def slots : (types : List Type) → Row Field types → List (Slot (Row Id types))
  | [], _ => []
  | _ :: types, (field, fields) =>
    ⟨_, field, Prod.fst⟩ :: (slots types fields).map (Slot.comap Prod.snd)

section Slots

variable {types : List Type} {fields : Row Field types}

theorem fromTexts?_nil (texts : List (String × List Char)) : fromTexts? [] () texts = some () := by
  have hfold : texts.foldlM (fillText [] ()) () = some () := by
    induction texts with
    | nil => rfl
    | cons p texts ih => exact ih
  rw [fromTexts?]
  exact congrArg (Option.bind · fun slots => (complete [] () slots).toOption) hfold

theorem fromTexts?_eq_some_iff (hnodup : (keys types fields).Nodup)
    (texts : List (String × List Char)) (row : Row Id types) :
    fromTexts? types fields texts = some row ↔
      ∀ slot ∈ slots types fields, slot.field.valueOf? texts = some (slot.part row) := by
  induction types with
  | nil => exact iff_of_true (fromTexts?_nil texts) fun slot hslot => absurd hslot List.not_mem_nil
  | cons α types ih =>
      obtain ⟨field, fields⟩ := fields
      obtain ⟨a, row⟩ := row
      obtain ⟨hnot, hnodup⟩ := List.nodup_cons.mp hnodup
      rw [fromTexts?_cons hnot, slots, List.forall_mem_cons, List.forall_mem_map]
      simp only [Slot.comap, Function.comp_apply, ← ih hnodup row]
      cases field.valueOf? texts with
      | none => simp
      | some b => simp [and_comm]

theorem exists_fromTexts?_iff (hnodup : (keys types fields).Nodup)
    (texts : List (String × List Char)) :
    (∃ row, fromTexts? types fields texts = some row) ↔
      ∀ slot ∈ slots types fields, ∃ a, slot.field.valueOf? texts = some a := by
  induction types with
  | nil => exact iff_of_true ⟨(), fromTexts?_nil texts⟩ fun _ hslot => absurd hslot List.not_mem_nil
  | cons α types ih =>
      obtain ⟨field, fields⟩ := fields
      obtain ⟨hnot, hnodup⟩ := List.nodup_cons.mp hnodup
      rw [fromTexts?_cons hnot, slots, List.forall_mem_cons, List.forall_mem_map]
      simp only [Slot.comap, ← ih hnodup]
      cases field.valueOf? texts with
      | none => simp
      | some b => simp

variable (ms : List NamedMember)

theorem keyed?_named : keyed? types fields (ms.map NamedMember.toMemberText) =
    fromTexts? types fields (ms.map fun m => (m.name, m.value)) :=
  keyed?_eq_fromTexts? NamedMember.spells ms

theorem keyed?_eq_some_iff (hnodup : (keys types fields).Nodup) (row : Row Id types) :
    keyed? types fields (ms.map NamedMember.toMemberText) = some row ↔
      ∀ slot ∈ slots types fields, slot.field.given? ms = some (slot.part row) := by
  simp only [keyed?_named, fromTexts?_eq_some_iff hnodup, Field.given?_eq_valueOf?]

theorem exists_keyed?_iff (hnodup : (keys types fields).Nodup) :
    (∃ row, keyed? types fields (ms.map NamedMember.toMemberText) = some row) ↔
      ∀ slot ∈ slots types fields, ∃ a, slot.field.given? ms = some a := by
  simp only [keyed?_named, exists_fromTexts?_iff hnodup, Field.given?_eq_valueOf?]

end Slots

end Record

namespace Field

variable {α : Type} {field : Field α} {ms : List NamedMember}

theorem mem_own_iff {m : NamedMember} : m ∈ field.own ms ↔ m ∈ ms ∧ m.name = field.key := by
  rw [own, List.mem_filter, decide_eq_true_eq]

theorem count_name (field : Field α) (ms : List NamedMember) :
    (ms.map NamedMember.name).count field.key = (field.own ms).length := by
  rw [own, List.count, List.countP_map, List.countP_eq_length_filter]
  rfl

-- A field is given if its key comes once at most, its value fits, and it can do without one where
-- there is none.
theorem exists_given?_iff :
    (∃ a, field.given? ms = some a) ↔
      (ms.map NamedMember.name).count field.key ≤ 1 ∧
        (field.absent = none → ∃ m ∈ ms, m.name = field.key) ∧
        ∀ m ∈ ms, m.name = field.key → ∃ a, field.value.value? m.value = some a := by
  have hmem : ∀ m, m ∈ ms ∧ m.name = field.key ↔ m ∈ field.own ms := fun m => mem_own_iff.symm
  have hall : (∀ m ∈ ms, m.name = field.key → ∃ a, field.value.value? m.value = some a) ↔
      ∀ m ∈ field.own ms, ∃ a, field.value.value? m.value = some a := by
    simp only [← hmem, and_imp]
  rw [count_name, hall]
  simp only [hmem, given?]
  rcases field.own ms with _ | ⟨m, _ | ⟨n, rest⟩⟩
  · simp [Option.ne_none_iff_exists']
  · simp
  · simp

theorem eq_of_given? {a : α} (h : field.given? ms = some a) :
    (∀ m ∈ ms, m.name = field.key → field.value.value? m.value = some a) ∧
      ((∀ m ∈ ms, m.name ≠ field.key) → field.absent = some a) := by
  have hown : ∀ m ∈ ms, m.name = field.key → m ∈ field.own ms :=
    fun m hm hkey => mem_own_iff.mpr ⟨hm, hkey⟩
  have hnone : (∀ m ∈ ms, m.name ≠ field.key) → field.own ms = [] := by
    intro hne
    rw [List.eq_nil_iff_forall_not_mem]
    exact fun m hm => hne m (mem_own_iff.mp hm).1 (mem_own_iff.mp hm).2
  unfold given? at h
  rcases hcase : field.own ms with _ | ⟨m, _ | ⟨n, rest⟩⟩ <;> rw [hcase] at h hown hnone
  · exact ⟨fun m hm hkey => absurd (hown m hm hkey) List.not_mem_nil, fun _ => h⟩
  · refine ⟨fun n hn hkey => ?_, fun hne => absurd (hnone hne) (List.cons_ne_nil _ _)⟩
    rw [List.mem_singleton.mp (hown n hn hkey)]
    exact h
  · cases h

-- A field looks at the known members alone.
theorem values_filter {names : List String} (hkey : field.key ∈ names)
    (texts : List (String × List Char)) :
    field.values (texts.filter fun p => p.1 ∈ names) = field.values texts := by
  rw [values, List.filter_filter, values]
  congr 1
  apply List.filter_congr
  intro p _
  by_cases hname : p.1 = field.key <;> simp [hname, hkey]

theorem values_knownOf {names : List String} (hkey : field.key ∈ names) (ms : List NamedMember) :
    field.values (knownOf names ms) = field.values (ms.map fun m => (m.name, m.value)) :=
  values_filter hkey _

-- At most one value counts, so their order does not matter.
theorem valueOf?_eq_of_perm {first second : List (String × List Char)}
    (h : (field.values first).Perm (field.values second)) :
    field.valueOf? first = field.valueOf? second := by
  rw [valueOf?, valueOf?]
  generalize field.values first = first at h
  generalize field.values second = second at h
  have hlength := h.length_eq
  rcases first with _ | ⟨x, _ | ⟨y, rest⟩⟩
  · rw [List.nil_perm.mp h]
  · rw [List.singleton_perm.mp h]
  · rcases second with _ | ⟨z, _ | ⟨w, rest'⟩⟩
    · cases hlength
    · cases hlength
    · rfl

theorem given?_eq_of_perm {names : List String} (hkey : field.key ∈ names)
    {ms ns : List NamedMember} (h : (knownOf names ms).Perm (knownOf names ns)) :
    field.given? ms = field.given? ns := by
  rw [given?_eq_valueOf?, given?_eq_valueOf?]
  refine valueOf?_eq_of_perm ?_
  rw [← values_knownOf hkey ms, ← values_knownOf hkey ns]
  exact (h.filter _).map _

section Texts

variable {α β : Type} {field : Field α} {front back : List (String × List Char)}

theorem values_append (first second : List (String × List Char)) :
    field.values (first ++ second) = field.values first ++ field.values second := by
  rw [values, List.filter_append, List.map_append, values, values]

theorem values_middle (name : String) (text : List Char) :
    field.values (front ++ (name, text) :: back) =
      field.values front ++ (if name = field.key then [text] else []) ++ field.values back := by
  rw [values_append, Record.values_cons]
  split <;> simp

theorem values_eq_nil {texts : List (String × List Char)}
    (h : ∀ p ∈ texts, p.1 ≠ field.key) : field.values texts = [] := by
  rw [values, List.filter_eq_nil_iff.mpr fun p hp => by simpa using h p hp, List.map_nil]

-- The only member under a key decides on the field.
theorem valueOf?_only (hother : ∀ p ∈ front ++ back, p.1 ≠ field.key)
    (said : Option (List Char)) :
    field.valueOf? (front ++ ((said.map (Prod.mk field.key)).toList ++ back)) =
      said.elim field.absent field.value.value? := by
  obtain ⟨hfront, hback⟩ := List.forall_mem_append.mp hother
  rw [valueOf?, values_append, values_append, values_eq_nil hfront, values_eq_nil hback]
  cases said with
  | none => rfl
  | some text => simp [values]

-- A member under another key has no part in the field.
theorem valueOf?_other (front back : List (String × List Char))
    {middle : List (String × List Char)} (h : ∀ p ∈ middle, p.1 ≠ field.key) :
    field.valueOf? (front ++ (middle ++ back)) = field.valueOf? (front ++ back) := by
  simp only [valueOf?, values_append, values_eq_nil h, List.nil_append]

theorem valueOf?_foreign {name : String} (h : name ≠ field.key) (first second : List Char) :
    field.valueOf? (front ++ (name, first) :: back) =
      field.valueOf? (front ++ (name, second) :: back) := by
  simp only [valueOf?, values_middle, if_neg h]

-- Another text under the key of a field that is given is the one that counts.
theorem valueOf?_own {first second : List Char}
    (h : ∃ a, field.valueOf? (front ++ (field.key, first) :: back) = some a) :
    field.valueOf? (front ++ (field.key, second) :: back) = field.value.value? second := by
  obtain ⟨a, ha⟩ := h
  simp only [valueOf?, values_middle, if_true] at ha ⊢
  generalize field.values front = before at ha ⊢
  generalize field.values back = behind at ha ⊢
  rcases before with _ | ⟨text, _ | ⟨next, rest⟩⟩
  · rcases behind with _ | ⟨text, rest⟩
    · rfl
    · cases ha
  · cases ha
  · cases ha

-- Another text for a value changes no more than what the value shows.
theorem map_valueOf?_replace {name : String} {first second : List Char} {see : α → β}
    (h : field.key = name →
      (field.value.value? first).map see = (field.value.value? second).map see) :
    (field.valueOf? (front ++ (name, first) :: back)).map see =
      (field.valueOf? (front ++ (name, second) :: back)).map see := by
  by_cases hname : name = field.key
  · simp only [valueOf?, values_middle, if_pos hname]
    rcases field.values front with _ | ⟨text, rest⟩
    · rcases field.values back with _ | ⟨text, rest⟩
      · exact h hname.symm
      · rfl
    · cases rest <;> rfl
  · rw [valueOf?_foreign hname first second]

end Texts

end Field

end DashboardScript.Json
