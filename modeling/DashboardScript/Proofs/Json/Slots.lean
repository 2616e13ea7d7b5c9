import DashboardScript.Proofs.Json.Closure
import DashboardScript.Proofs.Json.Locality

namespace DashboardScript.Json

open Grammar Reader

namespace Record

-- What a member makes of the slots of a record, by its key and the text of its value.
def fill : (types : List Type) → Row Field types → Row Option types → (key : String) →
    (text : List Char) → Option (Row Option types)
  | [], _, slots, _, _ => some slots
  | _ :: types, (field, fields), (slot, slots), key, text =>
    if key = field.key then
      match slot with
      | some _ => none
      | none => (field.value.value? text).map fun a => (some a, slots)
    else (fill types fields slots key text).map fun slots => (slot, slots)

-- Each field makes the same of a value wherever it stands.
def Local : (types : List Type) → Row Field types → Prop
  | [], _ => True
  | _ :: types, (field, fields) => field.value.Local ∧ Local types fields

theorem local_of_every {types : List Type} {fields : Row Field types}
    (h : Every Decoder.Local types fields) : Local types fields := by
  induction types with
  | nil => trivial
  | cons α types ih =>
      obtain ⟨field, fields⟩ := fields
      exact ⟨h.1, ih h.2⟩

-- With so many levels left, each field makes the same of a value at its place as of the value alone.
def Reads (room : Nat) (text : List Char) : (types : List Type) → Row Field types → Prop
  | [], _ => True
  | _ :: types, (field, fields) =>
    (IgnoresBlanks (field.value room) ∧ Settles (field.value room) text (field.value.value? text)) ∧
      Reads room text types fields

theorem reads_of_local {depth room : Nat} {text : List Char} {types : List Type}
    {fields : Row Field types} (hlocal : Local types fields) (hvalue : IsValue depth text)
    (hdepth : depth ≤ Decoder.maxDepth) (hroom : depth ≤ room) : Reads room text types fields := by
  induction types with
  | nil => trivial
  | cons α types ih =>
      obtain ⟨field, fields⟩ := fields
      obtain ⟨hfield, hfields⟩ := hlocal
      exact ⟨⟨hfield.blanks room, hfield.settles_value? hvalue hdepth hroom⟩, ih hfields⟩

section Object

variable {room : Nat} {types : List Type} {fields : Row Field types}

-- The meaning of a key settles a member.
def Meaning.Settles (m : MemberText) (slots : Row Option types)
    (outcome : Option (Row Option types)) : Meaning (Row Option types) → Prop
  | .unknown => outcome = some slots
  | .repeated => outcome = none
  | .fills value => Reader.Settles value (m.lead.val ++ m.value) outcome

theorem settles_meaning {m : MemberText} (hread : Reads room m.value types fields) (key : String)
    (slots : Row Option types) :
    (meaning room key types fields slots).Settles m slots (fill types fields slots key m.value) := by
  induction types with
  | nil => rfl
  | cons α types ih =>
      obtain ⟨field, fields⟩ := fields
      obtain ⟨slot, slots⟩ := slots
      obtain ⟨⟨hblanks, hfield⟩, hfields⟩ := hread
      by_cases hkey : key = field.key
      · simp only [meaning, fill, hkey, if_true]
        cases slot with
        | some a => rfl
        | none =>
            have hfill := (hfield.blanks hblanks m.lead).map fun a => (some a, slots)
            rw [← bind_pure_comp] at hfill
            exact hfill
      · have hrest := ih hfields slots
        simp only [meaning, fill, hkey, if_false]
        cases hmeaning : meaning room key types fields slots with
        | unknown =>
            rw [hmeaning] at hrest
            exact congrArg (Option.map fun slots => (slot, slots)) hrest
        | repeated =>
            rw [hmeaning] at hrest
            exact congrArg (Option.map fun slots => (slot, slots)) hrest
        | fills value =>
            rw [hmeaning] at hrest
            exact Reader.Settles.map hrest _

theorem settles_member {m : MemberText} (hskips : Skips m.value)
    (hread : Reads room m.value types fields) (slots : Row Option types) (key : String) :
    Settles (member fields room slots key) m.fromColon (fill types fields slots key m.value) := by
  have hmeaning := settles_meaning hread key slots
  unfold member
  cases hcase : meaning room key types fields slots with
  | unknown =>
      rw [hcase] at hmeaning
      rw [show fill types fields slots key m.value = some slots from hmeaning]
      have hskip := (hskips.blanks m.lead).settles
      exact settles_fromColon (hskip.bind (g := fun _ => some slots) fun _ _ => rfl)
  | repeated =>
      rw [hcase] at hmeaning
      rw [show fill types fields slots key m.value = none from hmeaning]
      exact settles_none (fun text => run?_failObject _ text) _
  | fills value =>
      rw [hcase] at hmeaning
      exact settles_fromColon hmeaning

-- The members fill the slots one after the other.
def fillBy (types : List Type) (fields : Row Field types) :
    Row Option types → MemberText → Option (Row Option types) :=
  stepBy fun slots key m => fill types fields slots key m.value

def keyed? (types : List Type) (fields : Row Field types) (ms : List MemberText) :
    Option (Row Id types) :=
  (ms.foldlM (fillBy types fields) (emptySlots types)).bind fun slots =>
    (complete types fields slots).toOption

theorem settles_keyed (pad : Blanks) {ms : List MemberText}
    (hms : ∀ m ∈ ms, Skips m.value ∧ Reads room m.value types fields) :
    Settles (keyed fields room) (bracedText pad ms) (keyed? types fields ms) := by
  have hbraced := settles_braced pad (emptySlots types) fun m hm slots key _ =>
    settles_member (hms m hm).1 (hms m hm).2 slots key
  refine hbraced.bind fun slots rest => ?_
  cases complete types fields slots <;> rfl

end Object

section Array

variable {room : Nat} {types : List Type} {fields : Row Field types}

-- The values of the fields by position, and nothing behind them.
def place : (types : List Type) → Row Field types → List ItemText → Option (Row Id types)
  | [], _, [] => some ()
  | [], _, _ :: _ => none
  | _ :: types, (field, fields), [] => do
    let a ← field.absent
    let row ← place types fields []
    pure (a, row)
  | _ :: types, (field, fields), i :: items => do
    let a ← field.value.value? i.value
    let row ← place types fields items
    pure (a, row)

def closing {α : Type} (reader : Reader α) : Reader α := do
  let a ← reader
  closeList
  pure a

theorem closing_bind {α β : Type} (reader : Reader α) (f : α → Reader β) :
    closing (reader >>= f) = (do closing (f (← reader))) := by
  simp only [closing, bind_assoc]

theorem closing_pair {α β : Type} (a : α) (reader : Reader β) :
    closing (do let b ← reader; pure (a, b)) = (a, ·) <$> closing reader := by
  simp only [closing, bind_assoc, pure_bind, map_bind, map_pure]

-- An array does not end in front of an item.
theorem closeList_leadIn (first : Bool) (pad before : Blanks) {text : List Char} (h : Begins text)
    (rest : List Char) : closeList.run? (leadIn first pad before (text ++ rest)) = none := by
  have hpad : IgnoresBlanks closeList := ignoresBlanks_peekToken.bind _
  have hrefused : ∀ {c : Char} tail, isBlank c = false → c ≠ ']' →
      closeList.run? (c :: tail) = none := by
    intro c tail hblank hc
    rw [closeList, run?_bind_of_ok _ (peekToken_cons hblank tail)]
    dsimp only
    rw [if_neg hc]
    split
    · refine run?_bind_none (fun _ rest => ?_) advance _
      refine run?_bind_none (fun next rest => ?_) peekToken rest
      split <;> rfl
    · rfl
  obtain ⟨c, tail, rfl, hblank, hc⟩ := h
  rw [leadIn, hpad.run?]
  cases first with
  | true => exact (hpad.run? before _).trans (hrefused _ hblank hc)
  | false => exact hrefused _ rfl (by decide)

theorem settles_elements (expected : String) {items : List ItemText}
    (hitems : ∀ i ∈ items, Begins i.value ∧ Reads room i.value types fields) (index : Nat)
    (pad : Blanks) (rest : List Char) :
    (closing (elements expected room types fields index)).run?
        (pad.val ++ (separated (index == 0) (items.map ItemText.text) ++ ']' :: rest)) =
      (place types fields items).map (·, rest) := by
  induction types generalizing items index pad with
  | nil =>
      cases items with
      | nil =>
          have hpad : IgnoresBlanks closeList := ignoresBlanks_peekToken.bind _
          exact run?_of_ok (bind_of_ok _ ((hpad pad _).trans (closeList_run rest)))
      | cons i items =>
          rw [separated_items, elements, closing, pure_bind, run?_bind,
            closeList_leadIn _ _ _ (hitems i List.mem_cons_self).1]
          rfl
  | cons α types ih =>
      obtain ⟨field, fields⟩ := fields
      cases items with
      | nil =>
          have hpad : IgnoresBlanks (hasItem (index == 0)) := ignoresBlanks_peekToken.bind _
          have hend := (hpad pad _).trans (hasItem_end (index == 0) rest)
          have hrest :
              (closing (elements expected room types fields (index + 1))).run? (']' :: rest) =
                (place types fields []).map (·, rest) :=
            ih (List.forall_mem_nil _) (index + 1) ⟨[], by simp⟩
          rw [elements, closing_bind, List.map_nil, separated, List.nil_append,
            run?_bind_of_ok _ hend]
          simp only [Bool.false_eq_true, if_false, place]
          cases field.absent with
          | none =>
              rw [closing, run?_bind, run?_failList]
              rfl
          | some a =>
              simp only [closing_pair]
              rw [run?_map, hrest]
              cases place types fields [] <;> rfl
      | cons i items =>
          have hends := endsNumber_blanks i.after
            (endsNumber_separated (.inl rfl) (items.map ItemText.text) rest)
          obtain ⟨hbegins, ⟨-, hread⟩, -⟩ := hitems i List.mem_cons_self
          have hrest : (closing (elements expected room types fields (index + 1))).run?
              (i.after.val ++ (separated false (items.map ItemText.text) ++ ']' :: rest)) =
                (place types fields items).map (·, rest) :=
            ih (fun j hj => (hitems j (List.mem_cons_of_mem i hj)).imp_right And.right) (index + 1)
              i.after
          rw [separated_items, elements, closing_bind,
            run?_bind_of_ok _ (hasItem_leadIn _ _ _ hbegins _)]
          simp only [if_true, place]
          rw [closing_bind, hread.run?_bind hends]
          cases field.value.value? i.value with
          | none => rfl
          | some a =>
              simp only [Option.bind_some]
              rw [closing_pair, run?_map, hrest]
              cases place types fields items <;> rfl

theorem settles_positional (expected : String) (pad : Blanks) {items : List ItemText}
    (hitems : ∀ i ∈ items, Begins i.value ∧ Reads room i.value types fields) :
    Settles (positional expected fields room) (bracketedText pad items)
      (place types fields items) := by
  intro rest _
  rw [bracketedText, List.cons_append, closed_append, positional,
    run?_bind_of_ok _ (advance_cons '[' _)]
  exact settles_elements expected hitems 0 pad rest

end Array

end Record

-- A record is decoded the same wherever it stands, from an object and from an array.
theorem Shape.local_decoder {α : Type} (shape : Shape α)
    (hlocal : Record.Local shape.types shape.fields) : shape.decoder.Local := by
  constructor
  case blanks => exact fun room => Decoder.ignoresBlanks_next.bind _
  case settles =>
    intro depth text hdepth hvalue
    refine Decoder.exists_settles_next hvalue ?_ ?_ ?_
    · rintro found ⟨hsequence, hmap⟩
      cases found
      case sequence => exact absurd rfl hsequence
      case map => exact absurd rfl hmap
      all_goals exact ⟨none, fun _ _ => rfl⟩
    · rintro inner pad items rfl hitems
      refine ⟨(Record.place shape.types shape.fields items).map shape.make, fun room hroom => ?_⟩
      obtain ⟨spare, rfl⟩ := Nat.exists_eq_add_of_le' hroom
      refine (Record.settles_positional _ pad fun i hi => ⟨(hitems i hi).begins, ?_⟩).map shape.make
      exact Record.reads_of_local hlocal (hitems i hi) (Nat.le_of_succ_le hdepth)
        (Nat.le_add_left inner spare)
    · rintro inner pad ms rfl hmembers
      refine ⟨(Record.keyed? shape.types shape.fields ms).map shape.make, fun room hroom => ?_⟩
      obtain ⟨spare, rfl⟩ := Nat.exists_eq_add_of_le' hroom
      refine (Record.settles_keyed pad fun m hm => ⟨(hmembers m hm).skips, ?_⟩).map shape.make
      exact Record.reads_of_local hlocal (hmembers m hm) (Nat.le_of_succ_le hdepth)
        (Nat.le_add_left inner spare)

-- As a whole text, an object is decoded member by member.
theorem Shape.value?_bracedText {α : Type} (shape : Shape α)
    (hlocal : Record.Local shape.types shape.fields) (before pad after : Blanks)
    {ms : List MemberText} (hms : ∀ m ∈ ms, IsValue (Decoder.maxDepth - 1) m.value) :
    shape.decoder.value? (before.val ++ (bracedText pad ms ++ after.val)) =
      (Record.keyed? shape.types shape.fields ms).map shape.make := by
  apply Decoder.value?_of_settles (shape.local_decoder hlocal |>.blanks _)
  have hread : ∀ m ∈ ms, Skips m.value ∧
      Record.Reads (Decoder.maxDepth - 1) m.value shape.types shape.fields := fun m hm =>
    ⟨(hms m hm).skips, Record.reads_of_local hlocal (hms m hm) (Nat.sub_le _ 1) (Nat.le_refl _)⟩
  have hkeyed := (Record.settles_keyed pad hread).map shape.make
  intro rest hrest
  rw [← hkeyed rest hrest, Shape.decoder]
  exact run?_bind_of_ok _ (next_brace _)

open Decoder in
theorem Decoder.closed_local : Decoder.Closed Decoder.Local where
  text := local_text
  flag := local_flag
  word := local_word
  number := local_number
  any := local_any
  optional := local_optional
  list := local_list
  record h := Shape.local_decoder _ (Record.local_of_every h)

theorem Shape.decoder_refuses_null {α : Type} (shape : Shape α) :
    ¬∃ a, shape.decoder.decode "null" = .ok a :=
  Decoder.refuses_null fun _ _ => rfl

end DashboardScript.Json
