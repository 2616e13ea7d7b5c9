import DashboardScript.Proofs.Dashboard.Exchange
import DashboardScript.Proofs.Json.Places

namespace DashboardScript

open Json Json.Grammar Json.Reader

-- A text with blanks on both sides.
def padded (before : Blanks) (text : List Char) (after : Blanks) : String :=
  String.ofList (before.val ++ (text ++ after.val))

namespace RecordType

variable (r : RecordType)

section Read

variable {r} (room : Nat) (before pad after : Blanks)

-- What a record makes of items by their place, where so many levels are left.
def placed? (r : RecordType) : (room : Nat) → List AnyItem → Option r.Carrier
  | 0, _ => none
  | room + 1, items =>
    (Record.place r.shape.types (Record.within room r.shape.types r.shape.fields)
      (items.map AnyItem.toItemText)).map r.shape.make

-- What it makes of members by their name.
def named? (r : RecordType) : (room : Nat) → List AnyMember → Option r.Carrier
  | 0, _ => none
  | room + 1, ms =>
    (Record.fromTexts? r.shape.types (Record.within room r.shape.types r.shape.fields)
      (texts ms)).map r.shape.make

theorem toOption_decode_items (items : List AnyItem) :
    ((r.shape.decoder.within room).decode (padded before (itemsText pad items) after)).toOption =
      r.placed? room items := by
  refine Decoder.value?_of_settles (Decoder.ignoresBlanks_next.bind _) ?_ before after
  cases room with
  | zero => exact Shape.settles_decoder_zero ⟨_, .inl rfl⟩
  | succ room =>
      refine Shape.settles_decoder_array r.steady_fields pad fun i hi => ?_
      obtain ⟨item, -, rfl⟩ := List.mem_map.mp hi
      exact item.valid

theorem toOption_decode_members (ms : List AnyMember) :
    ((r.shape.decoder.within room).decode (padded before (membersText pad ms) after)).toOption =
      r.named? room ms := by
  refine Decoder.value?_of_settles (Decoder.ignoresBlanks_next.bind _) ?_ before after
  cases room with
  | zero => exact Shape.settles_decoder_zero ⟨_, .inr rfl⟩
  | succ room =>
      have hvalid : ∀ m ∈ ms.map AnyMember.toMemberText, ∃ depth, IsValue depth m.value := by
        intro m hm
        obtain ⟨member, -, rfl⟩ := List.mem_map.mp hm
        exact member.valid
      have hsettles : Settles (r.shape.decoder (room + 1)) (membersText pad ms) _ :=
        Shape.settles_decoder_object r.steady_fields pad hvalid
      rw [Record.keyed?_eq_fromTexts? AnyMember.spells] at hsettles
      exact hsettles

end Read

theorem keys_eq : Record.keys r.shape.types r.shape.fields = r.keys := by
  cases r <;> rfl

section Agree

variable {r} {room : Nat} {items : List AnyItem} {ms : List AnyMember}

theorem texts_eq_zip (hlength : items.length ≤ r.keys.length)
    (hnames : ms.map (·.name) = r.keys.take items.length)
    (hvalues : ms.map (·.value) = items.map (·.value)) :
    texts ms = r.keys.zip (items.map (·.value)) := by
  have hmin : min r.keys.length (items.map (·.value)).length = items.length := by
    rw [List.length_map, Nat.min_eq_right hlength]
  rw [List.zip_eq_zip_take_min, hmin, ← hnames, ← List.map_take, List.take_length, ← hvalues,
    List.zip_map']
  rfl

theorem placed?_eq_named? (hlength : items.length ≤ r.keys.length)
    (hnames : ms.map (·.name) = r.keys.take items.length)
    (hvalues : ms.map (·.value) = items.map (·.value)) :
    r.placed? room items = r.named? room ms := by
  cases room with
  | zero => rfl
  | succ room =>
      have hkeys : Record.keys r.shape.types (Record.within room r.shape.types r.shape.fields) =
          r.keys := Record.keys_within.trans r.keys_eq
      have htypes : (items.map AnyItem.toItemText).length ≤ r.shape.types.length := by
        rwa [List.length_map, ← Record.length_keys r.shape.types r.shape.fields, r.keys_eq]
      rw [placed?, named?, Record.place_eq_fromTexts? (r.nodup_keys_within room) htypes, hkeys,
        List.map_map, texts_eq_zip hlength hnames hvalues]
      rfl

theorem placed?_eq_none (h : r.keys.length < items.length ∨
    ∃ key ∈ r.keys.drop items.length, key ∈ requiredKeys) : r.placed? room items = none := by
  cases room with
  | zero => rfl
  | succ room =>
      rw [placed?, Option.map_eq_none_iff, Option.eq_none_iff_forall_not_mem]
      intro row hrow
      obtain ⟨hlength, habsent⟩ := Record.length_le_of_place hrow
      rw [List.length_map] at hlength habsent
      rcases h with hmany | ⟨key, hkey, hrequired⟩
      · rw [← Record.length_keys r.shape.types r.shape.fields, r.keys_eq] at hlength
        omega
      · rw [Record.slots_within, ← r.comap_slots, List.map_map, ← List.map_drop,
          List.forall_mem_map] at habsent
        rw [keys, ← List.map_drop] at hkey
        obtain ⟨slot, hslot, rfl⟩ := List.mem_map.mp hkey
        exact habsent slot hslot
          ((r.absent_eq_none_iff slot (List.mem_of_mem_drop hslot)).mpr hrequired)

end Agree

-- A record makes the same of the items of an array as of an object with these values under its
-- first keys, wherever it stands. An array that is too long or leaves out a required field is
-- refused.
theorem positional_agrees_with_keyed (room : Nat) (before pad after : Blanks)
    (items : List AnyItem) :
    (items.length ≤ r.keys.length →
      ∀ (front inner back : Blanks) (ms : List AnyMember),
        ms.map (·.name) = r.keys.take items.length → ms.map (·.value) = items.map (·.value) →
          ∀ a : r.Carrier,
            (r.shape.decoder.within room).decode (padded before (itemsText pad items) after) =
                .ok a ↔
              (r.shape.decoder.within room).decode (padded front (membersText inner ms) back) =
                .ok a) ∧
    (r.keys.length < items.length ∨ (∃ key ∈ r.keys.drop items.length, key ∈ requiredKeys) →
      ∃ e, (r.shape.decoder.within room).decode (padded before (itemsText pad items) after) =
        .error e) := by
  constructor
  · intro hlength front inner back ms hnames hvalues a
    rw [← toOption_eq_some_iff, ← toOption_eq_some_iff, toOption_decode_items,
      toOption_decode_members, placed?_eq_named? hlength hnames hvalues]
  · intro h
    have hnone := toOption_decode_items room before pad after (r := r) items
    rw [placed?_eq_none h] at hnone
    cases hdecode :
        (r.shape.decoder.within room).decode (padded before (itemsText pad items) after) with
    | error e => exact ⟨e, rfl⟩
    | ok a =>
        rw [hdecode] at hnone
        cases hnone

-- A query as an array of two items and as an object, and a place on the grid without its last three
-- numbers.
theorem positional_agrees_at_target :
    (target.shape.decoder.within Decoder.maxDepth).decode "[\"up\",null]" =
      .ok ({ expr := "up" } : Target) ∧
    (target.shape.decoder.within Decoder.maxDepth).decode
      "\x7b\"expr\":\"up\",\"format\":null\x7d" = .ok ({ expr := "up" } : Target) ∧
    ∃ e, (gridPos.shape.decoder.within Decoder.maxDepth).decode "[1]" = .error e := by
  have hitems : (target.shape.decoder.within Decoder.maxDepth).decode "[\"up\",null]" =
      .ok ({ expr := "up" } : Target) := rfl
  let pad : Blanks := ⟨[], by simp⟩
  let up := quotedText (Glyph.raws ['u', 'p'] rfl)
  have hup : ∃ depth, IsValue depth up := ⟨0, .string 0 _⟩
  have hnull : ∃ depth, IsValue depth "null".toList := ⟨0, .null 0⟩
  have hone : ∃ depth, IsValue depth ['1'] :=
    ⟨0, .number 0 ⟨false, ⟨['1'], by simp, .inr ⟨'1', [], rfl, by decide⟩⟩, none, none⟩⟩
  have hagree := (target.positional_agrees_with_keyed Decoder.maxDepth pad pad pad
    [⟨⟨pad, up, pad⟩, hup⟩, ⟨⟨pad, "null".toList, pad⟩, hnull⟩]).1 (show 2 ≤ 7 by decide) pad pad pad
    [.plain "expr" rfl up hup, .plain "format" rfl "null".toList hnull] rfl rfl { expr := "up" }
  refine ⟨hitems, hagree.mp hitems, ?_⟩
  exact (gridPos.positional_agrees_with_keyed Decoder.maxDepth pad pad pad
    [⟨⟨pad, ['1'], pad⟩, hone⟩]).2 (.inr ⟨"w", show "w" ∈ ["w", "x", "y"] by decide, by decide⟩)

end RecordType

end DashboardScript
