import DashboardScript.Proofs.Dashboard.Positional

namespace DashboardScript

open Json Json.Grammar Json.Reader

namespace RecordType

variable (r : RecordType)

-- The text of a record by its members.
def objectText (before pad after : Blanks) (ms : List AnyMember) : String :=
  padded before (membersText pad ms) after

section Decode

variable (before pad after : Blanks) (ms : List AnyMember)

-- What a record takes from members as a whole text, field by field.
def given (slot : Slot r.Carrier) (ms : List AnyMember) : Option slot.type :=
  (slot.field.within (Decoder.maxDepth - 1)).valueOf? (texts ms)

theorem decode_objectText_eq_ok_iff (a : r.Carrier) :
    r.shape.decoder.decode (objectText before pad after ms) = .ok a ↔
      ∃ row, Record.fromTexts? r.shape.types
          (Record.within (Decoder.maxDepth - 1) r.shape.types r.shape.fields) (texts ms) =
            some row ∧
        r.shape.make row = a := by
  have hread := toOption_decode_members (r := r) Decoder.maxDepth before pad after ms
  rw [← toOption_eq_some_iff]
  exact (Eq.congr_left hread).trans Option.map_eq_some_iff

theorem exists_decode_objectText_iff :
    (∃ a, r.shape.decoder.decode (objectText before pad after ms) = .ok a) ↔
      ∀ slot ∈ r.slots, ∃ v, r.given slot ms = some v := by
  simp only [decode_objectText_eq_ok_iff]
  rw [exists_comm]
  simp only [exists_and_left, exists_eq', and_true]
  exact r.exists_fromTexts?_iff (Decoder.maxDepth - 1) (texts ms)

theorem given_of_decode {a : r.Carrier}
    (h : r.shape.decoder.decode (objectText before pad after ms) = .ok a) :
    ∀ slot ∈ r.slots, r.given slot ms = some (slot.part a) := by
  obtain ⟨row, hrow, rfl⟩ := (r.decode_objectText_eq_ok_iff before pad after ms a).mp h
  exact (r.fromTexts?_eq_some_iff (Decoder.maxDepth - 1) (texts ms) row).mp hrow

end Decode

section Replaced

variable {r} {before pad after : Blanks} {front back : List AnyMember} {m n : AnyMember}

theorem texts_middle (front back : List AnyMember) (m : AnyMember) :
    texts (front ++ m :: back) = texts front ++ (m.name, m.value) :: texts back := by
  simp [texts]

-- A member in place of another one under its key changes what the record takes for this key, and
-- nothing else.
theorem exists_replaced (hname : n.name = m.name) {a : r.Carrier}
    (h : r.shape.decoder.decode (objectText before pad after (front ++ m :: back)) = .ok a)
    (hfits : ∀ slot ∈ r.slots, slot.field.key = n.name →
      ∃ v, (slot.field.within (Decoder.maxDepth - 1)).value.value? n.value = some v) :
    ∃ b, r.shape.decoder.decode (objectText before pad after (front ++ n :: back)) = .ok b ∧
      ∀ slot ∈ r.slots,
        (slot.field.key ≠ n.name → slot.part b = slot.part a) ∧
        (slot.field.key = n.name →
          (slot.field.within (Decoder.maxDepth - 1)).value.value? n.value =
            some (slot.part b)) := by
  have hgiven := r.given_of_decode before pad after _ h
  -- a field under another key sees the same values as before
  have hforeign : ∀ slot ∈ r.slots, slot.field.key ≠ n.name →
      r.given slot (front ++ n :: back) = some (slot.part a) := by
    intro slot hslot hkey
    have hne : m.name ≠ (slot.field.within (Decoder.maxDepth - 1)).key :=
      fun heq => hkey (heq.symm.trans hname.symm)
    rw [← hgiven slot hslot, given, given, texts_middle, texts_middle, hname]
    exact Field.valueOf?_foreign hne _ _
  -- the field under this key saw one value, so that the new one is the only one now
  have hown : ∀ slot ∈ r.slots, slot.field.key = n.name →
      r.given slot (front ++ n :: back) =
        (slot.field.within (Decoder.maxDepth - 1)).value.value? n.value := by
    intro slot hslot hkey
    have hm := hgiven slot hslot
    rw [given, texts_middle, ← hname, ← hkey] at hm
    rw [given, texts_middle, ← hkey]
    exact Field.valueOf?_own ⟨_, hm⟩
  have hexists : ∀ slot ∈ r.slots, ∃ v, r.given slot (front ++ n :: back) = some v := by
    intro slot hslot
    by_cases hkey : slot.field.key = n.name
    · rw [hown slot hslot hkey]
      exact hfits slot hslot hkey
    · exact ⟨_, hforeign slot hslot hkey⟩
  obtain ⟨b, hb⟩ := (r.exists_decode_objectText_iff before pad after _).mpr hexists
  have hparts := r.given_of_decode before pad after _ hb
  refine ⟨b, hb, fun slot hslot => ⟨fun hkey => ?_, fun hkey => ?_⟩⟩
  · exact Option.some.inj ((hparts slot hslot).symm.trans (hforeign slot hslot hkey))
  · rw [← hown slot hslot hkey]
    exact hparts slot hslot

end Replaced

-- A text of a record around a member under one key. With some member there it is accepted, so that
-- no other one has the key and all others fit.
structure Frame (r : RecordType) (key : String) where
  before : Blanks
  pad : Blanks
  after : Blanks
  front : List AnyMember
  back : List AnyMember
  accepts : ∃ m : AnyMember, m.name = key ∧
    ∃ a, r.shape.decoder.decode (objectText before pad after (front ++ m :: back)) = .ok a

namespace Frame

variable {r} {key : String}

def around (frame : Frame r key) (m : AnyMember) : String :=
  objectText frame.before frame.pad frame.after (frame.front ++ m :: frame.back)

-- All that is read within a frame but the value under its key is fixed.
theorem exists_base (frame : Frame r key) :
    ∃ base : r.Carrier, ∀ m : AnyMember, m.name = key →
      (∀ slot ∈ r.slots, slot.field.key = key →
        ∃ v, (slot.field.within (Decoder.maxDepth - 1)).value.value? m.value = some v) →
      ∃ a, r.shape.decoder.decode (frame.around m) = .ok a ∧
        ∀ slot ∈ r.slots,
          (slot.field.key ≠ key → slot.part a = slot.part base) ∧
          (slot.field.key = key →
            (slot.field.within (Decoder.maxDepth - 1)).value.value? m.value =
              some (slot.part a)) := by
  obtain ⟨first, hfirst, base, hbase⟩ := frame.accepts
  refine ⟨base, fun m hm hfits => ?_⟩
  subst hm
  exact exists_replaced hfirst.symm hbase hfits

end Frame

end RecordType

end DashboardScript
