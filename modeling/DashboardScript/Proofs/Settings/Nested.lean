import Mathlib.Data.List.Nodup
import Mathlib.Data.String.Basic
import DashboardScript.Json.Value
import DashboardScript.Toml.Table

-- Entries by name, some of them in a group of their own.
namespace DashboardScript.Settings

theorem bind_of_ok {ε α β : Type} {first : Except ε α} {a : α} (h : first = .ok a)
    (next : α → Except ε β) : (first >>= next) = next a := by
  rw [h]
  rfl

section Lookup

variable {α β γ : Type}

theorem lookup_cons_ite [BEq α] [LawfulBEq α] [DecidableEq α] (key name : α) (value : β)
    (rest : List (α × β)) :
    ((name, value) :: rest).lookup key = if key = name then some value else rest.lookup key := by
  rw [List.lookup_cons]
  by_cases h : key = name
  · rw [if_pos h, beq_iff_eq.mpr h]
  · rw [if_neg h, beq_eq_false_iff_ne.mpr h]

theorem lookup_map (f : β → γ) (key : String) (entries : List (String × β)) :
    (entries.map fun entry => (entry.1, f entry.2)).lookup key = (entries.lookup key).map f := by
  induction entries with
  | nil => rfl
  | cons entry rest ih =>
      rw [List.map_cons, lookup_cons_ite, ih, ← Prod.mk.eta (p := entry), lookup_cons_ite]
      split <;> rfl

-- Where no key stands twice, each entry is the one that its key finds.
theorem lookup_eq_some_iff [BEq α] [LawfulBEq α] [DecidableEq α] {entries : List (α × β)}
    (h : (entries.map Prod.fst).Nodup) (key : α) (value : β) :
    entries.lookup key = some value ↔ (key, value) ∈ entries := by
  induction entries with
  | nil => simp
  | cons entry rest ih =>
      obtain ⟨name, held⟩ := entry
      rw [List.map_cons, List.nodup_cons] at h
      rw [lookup_cons_ite, List.mem_cons]
      by_cases hkey : key = name
      · subst hkey
        have hnot : (key, value) ∉ rest := fun hmem => h.1 (List.mem_map.mpr ⟨_, hmem, rfl⟩)
        simp [hnot, eq_comm]
      · simp [hkey, ih h.2]

theorem lookup_eq_of_perm [BEq α] [LawfulBEq α] [DecidableEq α] {first second : List (α × β)}
    (hperm : first.Perm second) (h : (first.map Prod.fst).Nodup) (key : α) :
    first.lookup key = second.lookup key := by
  have hsecond : (second.map Prod.fst).Nodup := (hperm.map Prod.fst).nodup_iff.mp h
  refine Option.ext fun value => ?_
  rw [lookup_eq_some_iff h, lookup_eq_some_iff hsecond, hperm.mem_iff]

end Lookup

section Sorted

variable {β γ : Type}

-- The keys are in order, and none stands twice.
def Sorted (entries : List (String × β)) : Prop := (entries.map Prod.fst).Pairwise (· < ·)

theorem sorted_nil : Sorted ([] : List (String × β)) := .nil

theorem Sorted.nodup {entries : List (String × β)} (h : Sorted entries) :
    (entries.map Prod.fst).Nodup :=
  h.imp fun hlt => ne_of_lt hlt

theorem Sorted.map {entries : List (String × β)} (h : Sorted entries) (f : β → γ) :
    Sorted (entries.map fun entry => (entry.1, f entry.2)) := by
  rw [Sorted, List.map_map]
  exact h

theorem keys_insertMember (key : String) (value : β) (entries : List (String × β)) {name : String}
    (h : name ∈ (Json.insertMember key value entries).map Prod.fst) :
    name = key ∨ name ∈ entries.map Prod.fst := by
  induction entries with
  | nil => exact .inl (by simpa [Json.insertMember] using h)
  | cons entry rest ih =>
      obtain ⟨k, v⟩ := entry
      by_cases hlt : key < k
      · rw [Json.insertMember, if_pos hlt, List.map_cons, List.mem_cons] at h
        exact h
      · by_cases heq : key = k
        · rw [Json.insertMember, if_neg hlt, if_pos heq, List.map_cons, List.mem_cons] at h
          exact h.imp_right fun hrest => List.mem_cons_of_mem _ hrest
        · rw [Json.insertMember, if_neg hlt, if_neg heq, List.map_cons, List.mem_cons] at h
          rcases h with h | h
          · exact .inr (h ▸ List.mem_cons_self)
          · exact (ih h).imp_right fun hrest => List.mem_cons_of_mem _ hrest

theorem Sorted.insertMember {entries : List (String × β)} (h : Sorted entries) (key : String)
    (value : β) : Sorted (Json.insertMember key value entries) := by
  induction entries with
  | nil => exact List.pairwise_singleton _ _
  | cons entry rest ih =>
      obtain ⟨k, v⟩ := entry
      obtain ⟨hhead, hrest⟩ := List.pairwise_cons.mp h
      by_cases hlt : key < k
      · rw [Json.insertMember, if_pos hlt]
        refine List.pairwise_cons.mpr ⟨fun name hname => ?_, h⟩
        rcases List.mem_cons.mp hname with rfl | hname
        · exact hlt
        · exact lt_trans hlt (hhead name hname)
      · by_cases heq : key = k
        · rw [Json.insertMember, if_neg hlt, if_pos heq]
          exact List.pairwise_cons.mpr ⟨heq ▸ hhead, hrest⟩
        · rw [Json.insertMember, if_neg hlt, if_neg heq]
          refine List.pairwise_cons.mpr ⟨fun name hname => ?_, ih hrest⟩
          rcases keys_insertMember key value rest hname with rfl | hname
          · exact lt_of_le_of_ne (not_lt.mp hlt) (Ne.symm heq)
          · exact hhead name hname

-- A new entry is found by its key, and the others are found as before.
theorem lookup_insertMember (key : String) (value : β) (entries : List (String × β))
    (name : String) :
    (Json.insertMember key value entries).lookup name =
      if name = key then some value else entries.lookup name := by
  induction entries with
  | nil => exact lookup_cons_ite name key value []
  | cons entry rest ih =>
      obtain ⟨k, v⟩ := entry
      by_cases hlt : key < k
      · rw [Json.insertMember, if_pos hlt, lookup_cons_ite]
      · by_cases heq : key = k
        · subst heq
          rw [Json.insertMember, if_neg hlt, if_pos rfl, lookup_cons_ite, lookup_cons_ite]
          split <;> rfl
        · rw [Json.insertMember, if_neg hlt, if_neg heq, lookup_cons_ite, lookup_cons_ite, ih]
          by_cases hname : name = k
          · rw [if_pos hname, if_neg (hname ▸ Ne.symm heq), if_pos hname]
          · rw [if_neg hname, if_neg hname]

-- The two formats put an entry at the same place.
theorem set_eq_insertMember (key : String) (node : Toml.Node) (entries : Toml.Entries) :
    entries.set key node = Json.insertMember key node entries := by
  induction entries with
  | nil => rfl
  | cons entry rest ih =>
      obtain ⟨k, n⟩ := entry
      rw [Toml.Entries.set, Json.insertMember, ih]
      by_cases heq : key = k
      · subst heq
        rw [if_pos rfl, if_neg (lt_irrefl key), if_pos rfl]
      · rw [if_neg (Ne.symm heq)]
        split <;> rfl

end Sorted

-- The group of settings that has a name of its own.
def group : String := "preamble"

section Nested

variable {β γ : Type} {text : String → β} {isGroup : List (String × β) → β → Prop}
  {given : List (List String × String)}

-- The entries hold just the texts that are given for the paths within the group.
structure Inside (text : String → β) (inner : List (String × β))
    (given : List (List String × String)) : Prop where
  sorted : Sorted inner
  names : ∀ name, inner.lookup name = (given.lookup [group, name]).map text

namespace Inside

variable {inner : List (String × β)}

theorem nil (h : ∀ name, given.lookup [group, name] = none) : Inside text [] given where
  sorted := sorted_nil
  names name := by rw [h]; rfl

theorem insert (h : Inside text inner given) (name value : String) :
    Inside text (Json.insertMember name (text value) inner) (([group, name], value) :: given) where
  sorted := h.sorted.insertMember name (text value)
  names other := by
    rw [lookup_insertMember, lookup_cons_ite, h.names]
    by_cases heq : other = name
    · simp [heq]
    · simp [heq]

theorem exists_text (h : Inside text inner given) {entry : String × β} (hentry : entry ∈ inner) :
    ∃ value, entry.2 = text value := by
  have hlookup := (lookup_eq_some_iff h.sorted.nodup entry.1 entry.2).mpr hentry
  rw [h.names] at hlookup
  obtain ⟨value, -, hvalue⟩ := Option.map_eq_some_iff.mp hlookup
  exact ⟨value, hvalue.symm⟩

end Inside

-- The entries hold just the texts that are given for the paths, those of the group in an entry of its
-- own.
structure Nested (text : String → β) (isGroup : List (String × β) → β → Prop)
    (entries : List (String × β)) (given : List (List String × String)) : Prop where
  sorted : Sorted entries
  single : ∀ key, key ≠ group → entries.lookup key = (given.lookup [key]).map text
  grouped : ∀ value, entries.lookup group = some value →
    ∃ inner, isGroup inner value ∧ Inside text inner given
  ungrouped : entries.lookup group = none → ∀ name, given.lookup [group, name] = none

theorem nested_nil : Nested text isGroup [] [] where
  sorted := sorted_nil
  single _ _ := rfl
  grouped _ h := by cases h
  ungrouped _ _ := rfl

namespace Nested

variable {entries : List (String × β)}

-- It does not matter in which order the texts are given.
theorem perm (h : Nested text isGroup entries given) {more : List (List String × String)}
    (hperm : given.Perm more) (hnodup : (given.map Prod.fst).Nodup) :
    Nested text isGroup entries more := by
  have hsame : ∀ path, given.lookup path = more.lookup path := lookup_eq_of_perm hperm hnodup
  exact {
    sorted := h.sorted
    single := fun key hkey => by rw [← hsame, h.single key hkey]
    grouped := fun value hvalue => by
      obtain ⟨inner, hgroup, hinner⟩ := h.grouped value hvalue
      exact ⟨inner, hgroup, hinner.sorted, fun name => by rw [← hsame, hinner.names]⟩
    ungrouped := fun hnone name => by rw [← hsame, h.ungrouped hnone] }

theorem insertSingle (h : Nested text isGroup entries given) {key : String} (hkey : key ≠ group)
    (value : String) :
    Nested text isGroup (Json.insertMember key (text value) entries) (([key], value) :: given) where
  sorted := h.sorted.insertMember key (text value)
  single name hname := by
    rw [lookup_insertMember, lookup_cons_ite, h.single name hname]
    by_cases heq : name = key
    · simp [heq]
    · simp [heq]
  grouped held hheld := by
    rw [lookup_insertMember, if_neg (Ne.symm hkey)] at hheld
    obtain ⟨inner, hgroup, hinner⟩ := h.grouped held hheld
    refine ⟨inner, hgroup, hinner.sorted, fun name => ?_⟩
    rw [hinner.names, lookup_cons_ite, if_neg (by simp)]
  ungrouped hnone name := by
    rw [lookup_insertMember, if_neg (Ne.symm hkey)] at hnone
    rw [lookup_cons_ite, if_neg (by simp), h.ungrouped hnone]

-- Whatever is done to the group leaves the other entries alone.
theorem insertGroup (h : Nested text isGroup entries given) {inner : List (String × β)} {value : β}
    (hvalue : isGroup inner value) {more : List (List String × String)}
    (hsame : ∀ key, more.lookup [key] = given.lookup [key]) (hinner : Inside text inner more) :
    Nested text isGroup (Json.insertMember group value entries) more where
  sorted := h.sorted.insertMember group value
  single key hkey := by rw [lookup_insertMember, if_neg hkey, hsame, h.single key hkey]
  grouped held hheld := by
    rw [lookup_insertMember, if_pos rfl] at hheld
    obtain rfl := Option.some.inj hheld
    exact ⟨inner, hvalue, hinner⟩
  ungrouped hnone := by
    rw [lookup_insertMember, if_pos rfl] at hnone
    cases hnone

-- One more text in the group.
theorem insertGrouped (h : Nested text isGroup entries given) {inner : List (String × β)}
    (hinner : Inside text inner given) {name value : String} {held : β}
    (hheld : isGroup (Json.insertMember name (text value) inner) held) :
    Nested text isGroup (Json.insertMember group held entries) (([group, name], value) :: given) :=
  h.insertGroup hheld (fun key => by rw [lookup_cons_ite, if_neg (by simp)])
    (hinner.insert name value)

-- Every entry is a text, or it is the group and holds texts alone.
theorem cases_of_mem (h : Nested text isGroup entries given) {key : String} {value : β}
    (hmem : (key, value) ∈ entries) :
    (∃ s, ([key], s) ∈ given ∧ value = text s) ∨
      (key = group ∧ ∃ inner, isGroup inner value ∧ Inside text inner given) := by
  have hlookup := (lookup_eq_some_iff h.sorted.nodup key value).mpr hmem
  by_cases hkey : key = group
  · subst hkey
    exact .inr ⟨rfl, h.grouped value hlookup⟩
  · rw [h.single key hkey] at hlookup
    obtain ⟨s, hs, htext⟩ := Option.map_eq_some_iff.mp hlookup
    obtain ⟨before, after, rfl, -⟩ := List.lookup_eq_some_iff.mp hs
    exact .inl ⟨s, by simp, htext.symm⟩

-- The same texts stay where each value is put in another form.
theorem map (h : Nested text isGroup entries given) (f : β → γ)
    {isGroup' : List (String × γ) → γ → Prop}
    (hgroup : ∀ inner value, Inside text inner given → isGroup inner value →
      isGroup' (inner.map fun entry => (entry.1, f entry.2)) (f value)) :
    Nested (f ∘ text) isGroup' (entries.map fun entry => (entry.1, f entry.2)) given where
  sorted := h.sorted.map f
  single key hkey := by rw [lookup_map, h.single key hkey, Option.map_map]
  grouped value hvalue := by
    rw [lookup_map] at hvalue
    obtain ⟨held, hheld, rfl⟩ := Option.map_eq_some_iff.mp hvalue
    obtain ⟨inner, hvalue, hinner⟩ := h.grouped held hheld
    refine ⟨_, hgroup inner held hinner hvalue, hinner.sorted.map f, fun name => ?_⟩
    rw [lookup_map, hinner.names, Option.map_map]
  ungrouped hnone := by
    rw [lookup_map, Option.map_eq_none_iff] at hnone
    exact h.ungrouped hnone

end Nested

end Nested

end DashboardScript.Settings
