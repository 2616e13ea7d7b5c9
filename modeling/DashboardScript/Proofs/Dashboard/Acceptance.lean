import DashboardScript.Dashboard.Format
import DashboardScript.Proofs.Json.Acceptance

namespace DashboardScript

open Json Json.Grammar Json.Decoder

-- The records of a dashboard.
inductive RecordType where
  | dashboard
  | panel
  | gridPos
  | fieldConfig
  | fieldDefaults
  | thresholds
  | panelOptions
  | target

namespace RecordType

def Carrier : RecordType → Type
  | dashboard => Dashboard
  | panel => Panel
  | gridPos => GridPos
  | fieldConfig => FieldConfig
  | fieldDefaults => FieldDefaults
  | thresholds => Thresholds
  | panelOptions => PanelOptions
  | target => Target

def shape : (r : RecordType) → Shape r.Carrier
  | dashboard => Dashboard.shape
  | panel => Panel.shape
  | gridPos => GridPos.shape
  | fieldConfig => FieldConfig.shape
  | fieldDefaults => FieldDefaults.shape
  | thresholds => Thresholds.shape
  | panelOptions => PanelOptions.shape
  | target => Target.shape

-- A field that cannot do without a member.
def required {α β : Type} (key : String) (value : Decoder β) (part : α → β) : Slot α :=
  ⟨β, ⟨key, value, none⟩, part⟩

-- A field whose absence has a value of its own.
def defaulted {α β : Type} (key : String) (value : Decoder β) (absent : β) (part : α → β) : Slot α :=
  ⟨β, ⟨key, value, some absent⟩, part⟩

-- A field that may also be null.
def nullable {α β : Type} (key : String) (value : Decoder β) (part : α → Option β) : Slot α :=
  ⟨Option β, ⟨key, optional value, some none⟩, part⟩

-- Every field of a record, by its key, its type and the part of the record that it gives.
def slots : (r : RecordType) → List (Slot r.Carrier)
  | dashboard => [nullable "title" text Dashboard.title,
      nullable "schemaVersion" word Dashboard.schemaVersion,
      defaulted "tags" (list text) [] Dashboard.tags,
      defaulted "panels" (list (optional Panel.shape.decoder)) [] Dashboard.panels]
  | panel => [required "type" text Panel.type, nullable "title" text Panel.title,
      nullable "description" text Panel.description,
      required "gridPos" GridPos.shape.decoder Panel.gridPos,
      nullable "pluginVersion" text Panel.pluginVersion,
      nullable "collapsed" flag Panel.collapsed,
      defaulted "fieldConfig" FieldConfig.shape.decoder {} Panel.fieldConfig,
      defaulted "options" PanelOptions.shape.decoder {} Panel.options,
      nullable "targets" (list Target.shape.decoder) Panel.targets]
  | gridPos => [required "h" word GridPos.h, required "w" word GridPos.w,
      required "x" word GridPos.x, required "y" word GridPos.y]
  | fieldConfig => [defaulted "defaults" FieldDefaults.shape.decoder {} FieldConfig.defaults]
  | fieldDefaults => [nullable "custom" any FieldDefaults.custom,
      nullable "color" any FieldDefaults.color, nullable "unit" text FieldDefaults.unit,
      nullable "thresholds" Thresholds.shape.decoder FieldDefaults.thresholds]
  | thresholds => [nullable "mode" text Thresholds.mode]
  | panelOptions => [nullable "pieType" text PanelOptions.pieType,
      nullable "colorMode" text PanelOptions.colorMode,
      nullable "justifyMode" text PanelOptions.justifyMode,
      nullable "orientation" text PanelOptions.orientation]
  | target => [required "expr" text Target.expr, nullable "format" text Target.format,
      nullable "legendFormat" text Target.legendFormat,
      nullable "intervalFactor" number Target.intervalFactor, nullable "hide" flag Target.hide,
      nullable "instant" flag Target.instant, nullable "interval" text Target.interval]

def keys (r : RecordType) : List String := r.slots.map (·.field.key)

-- The keys that have to occur, and those whose value must not be null either.
def requiredKeys : List String := ["type", "gridPos", "h", "w", "x", "y", "expr"]

def presentKeys : List String :=
  requiredKeys ++ ["tags", "panels", "fieldConfig", "defaults", "options"]

end RecordType

section Every

variable {P : {α : Type} → Decoder α → Prop}

-- What passes from decoders to those that are made of them holds of every field of a record.
theorem RecordType.every_fields (h : Decoder.Closed P) (r : RecordType) :
    Record.Every P r.shape.types r.shape.fields := by
  have hgridPos : Record.Every P GridPos.shape.types GridPos.shape.fields :=
    ⟨h.word, h.word, h.word, h.word, trivial⟩
  have hthresholds : Record.Every P Thresholds.shape.types Thresholds.shape.fields :=
    ⟨h.optional h.text, trivial⟩
  have hdefaults : Record.Every P FieldDefaults.shape.types FieldDefaults.shape.fields :=
    ⟨h.optional h.any, h.optional h.any, h.optional h.text, h.optional (h.record hthresholds),
      trivial⟩
  have hconfig : Record.Every P FieldConfig.shape.types FieldConfig.shape.fields :=
    ⟨h.record hdefaults, trivial⟩
  have hoptions : Record.Every P PanelOptions.shape.types PanelOptions.shape.fields :=
    ⟨h.optional h.text, h.optional h.text, h.optional h.text, h.optional h.text, trivial⟩
  have htarget : Record.Every P Target.shape.types Target.shape.fields :=
    ⟨h.text, h.optional h.text, h.optional h.text, h.optional h.number, h.optional h.flag,
      h.optional h.flag, h.optional h.text, trivial⟩
  have hpanel : Record.Every P Panel.shape.types Panel.shape.fields :=
    ⟨h.text, h.optional h.text, h.optional h.text, h.record hgridPos, h.optional h.text,
      h.optional h.flag, h.record hconfig, h.record hoptions,
      h.optional (h.list (h.record htarget)), trivial⟩
  cases r with
  | dashboard =>
      exact ⟨h.optional h.text, h.optional h.word, h.list h.text,
        h.list (h.optional (h.record hpanel)), trivial⟩
  | panel => exact hpanel
  | gridPos => exact hgridPos
  | fieldConfig => exact hconfig
  | fieldDefaults => exact hdefaults
  | thresholds => exact hthresholds
  | panelOptions => exact hoptions
  | target => exact htarget

end Every

namespace RecordType

theorem local_fields (r : RecordType) : Record.Local r.shape.types r.shape.fields :=
  Record.local_of_every (r.every_fields closed_local)

theorem comap_slots (r : RecordType) :
    r.slots.map (Slot.comap r.shape.make) = Record.slots r.shape.types r.shape.fields := by
  cases r <;> rfl

theorem nodup_keys (r : RecordType) : (Record.keys r.shape.types r.shape.fields).Nodup := by
  cases r <;> decide

-- Null fits the fields that are neither required nor have a default of their own.
theorem null_fits_iff (r : RecordType) :
    ∀ slot ∈ r.slots, (∃ a, slot.field.value.decode "null" = .ok a) ↔
      slot.field.key ∉ presentKeys := by
  cases r <;> simp only [slots, List.forall_mem_cons, List.not_mem_nil, false_imp_iff, implies_true,
    and_true, nullable, required, defaulted, optional_takes_null, text_refuses_null,
    word_refuses_null, list_refuses_null, Shape.decoder_refuses_null, true_iff, false_iff] <;> decide

theorem absent_eq_none_iff (r : RecordType) :
    ∀ slot ∈ r.slots, slot.field.absent = none ↔ slot.field.key ∈ requiredKeys := by
  cases r <;> simp only [slots, List.forall_mem_cons, List.not_mem_nil, false_imp_iff, implies_true,
    and_true, nullable, required, defaulted, reduceCtorEq, false_iff, true_iff] <;> decide

end RecordType

-- The text of an object with such members, with blanks on both sides and behind its opening brace.
def objectOf (before pad after : Blanks) (ms : List NamedMember) : String :=
  String.ofList (before.val ++ (bracedText pad (ms.map NamedMember.toMemberText) ++ after.val))

-- What a record makes of the members of an object.
structure Accepts (r : RecordType) (ms : List NamedMember) (result : Except Json.Error r.Carrier) :
    Prop where
  -- It succeeds where no known key comes twice, no required one is missing and every known value
  -- fits the type of its field.
  accepted : (∃ a, result = .ok a) ↔
    (∀ key ∈ r.keys, (ms.map NamedMember.name).count key ≤ 1) ∧
      (∀ key ∈ r.keys, key ∈ RecordType.requiredKeys → ∃ m ∈ ms, m.name = key) ∧
      ∀ slot ∈ r.slots, ∀ m ∈ ms, m.name = slot.field.key →
        ∃ a, slot.field.value.decode m.valueText = .ok a
  -- Each part is the value of its own member, or without one what stands for its absence.
  parts : ∀ a, result = .ok a → ∀ slot ∈ r.slots,
    (∀ m ∈ ms, m.name = slot.field.key →
      slot.field.value.decode m.valueText = .ok (slot.part a)) ∧
    ((∀ m ∈ ms, m.name ≠ slot.field.key) → slot.field.absent = some (slot.part a))
  nulls : ∀ slot ∈ r.slots,
    (∃ a, slot.field.value.decode "null" = .ok a) ↔ slot.field.key ∉ RecordType.presentKeys
  -- Neither the order of the members nor those under unknown keys nor any blank matters.
  order : ∀ (ns : List NamedMember) (before pad after : Blanks),
    (knownOf r.keys ns).Perm (knownOf r.keys ms) →
      (r.shape.decoder.decode (objectOf before pad after ns)).toOption = result.toOption

section Object

variable (r : RecordType) (before pad after : Blanks) (ms : List NamedMember)

-- The values that the members give for the fields of a record.
def RecordType.row? : Option (Row Id r.shape.types) :=
  Record.keyed? r.shape.types r.shape.fields (ms.map NamedMember.toMemberText)

theorem toOption_decode_objectOf :
    (r.shape.decoder.decode (objectOf before pad after ms)).toOption =
      (r.row? ms).map r.shape.make := by
  refine r.shape.value?_bracedText r.local_fields before pad after fun m hm => ?_
  obtain ⟨n, -, rfl⟩ := List.mem_map.mp hm
  exact n.valid

theorem decode_objectOf_eq_ok_iff (a : r.Carrier) :
    r.shape.decoder.decode (objectOf before pad after ms) = .ok a ↔
      ∃ row, r.row? ms = some row ∧ r.shape.make row = a := by
  rw [← Reader.toOption_eq_some_iff, toOption_decode_objectOf, Option.map_eq_some_iff]

theorem exists_row_iff :
    (∃ row, r.row? ms = some row) ↔ ∀ slot ∈ r.slots, ∃ a, slot.field.given? ms = some a := by
  unfold RecordType.row?
  rw [Record.exists_keyed?_iff ms r.nodup_keys, ← r.comap_slots, List.forall_mem_map]
  rfl

theorem row_iff (row : Row Id r.shape.types) :
    r.row? ms = some row ↔
      ∀ slot ∈ r.slots, slot.field.given? ms = some (slot.part (r.shape.make row)) := by
  rw [RecordType.row?, Record.keyed?_eq_some_iff ms r.nodup_keys, ← r.comap_slots,
    List.forall_mem_map]
  rfl

-- Every field is given something just where none of its conditions fails.
theorem forall_given_iff :
    (∀ slot ∈ r.slots, ∃ a, slot.field.given? ms = some a) ↔
      (∀ key ∈ r.keys, (ms.map NamedMember.name).count key ≤ 1) ∧
        (∀ key ∈ r.keys, key ∈ RecordType.requiredKeys → ∃ m ∈ ms, m.name = key) ∧
        ∀ slot ∈ r.slots, ∀ m ∈ ms, m.name = slot.field.key →
          ∃ a, slot.field.value.decode m.valueText = .ok a := by
  simp only [Field.exists_given?_iff, RecordType.keys, List.forall_mem_map, Decoder.value?,
    Reader.toOption_eq_some_iff]
  constructor
  · intro h
    refine ⟨fun slot hslot => (h slot hslot).1, fun slot hslot hkey => ?_,
      fun slot hslot => (h slot hslot).2.2⟩
    exact (h slot hslot).2.1 ((r.absent_eq_none_iff slot hslot).mpr hkey)
  · rintro ⟨honce, hrequired, hvalue⟩ slot hslot
    refine ⟨honce slot hslot, fun habsent => ?_, hvalue slot hslot⟩
    exact hrequired slot hslot ((r.absent_eq_none_iff slot hslot).mp habsent)

-- The fields are given the same by other members with the same known ones.
theorem row?_eq_of_perm {ns : List NamedMember}
    (h : (knownOf r.keys ns).Perm (knownOf r.keys ms)) : r.row? ns = r.row? ms := by
  apply Option.ext
  intro row
  rw [row_iff, row_iff]
  refine forall₂_congr fun slot hslot => ?_
  have hkey : slot.field.key ∈ r.keys := List.mem_map.mpr ⟨slot, hslot, rfl⟩
  rw [Field.given?_eq_of_perm hkey h]

end Object

-- An object is decoded by its known members alone.
theorem decode_objectOf (r : RecordType) (before pad after : Blanks) (ms : List NamedMember) :
    Accepts r ms (r.shape.decoder.decode (objectOf before pad after ms)) := by
  constructor
  case accepted =>
    simp only [decode_objectOf_eq_ok_iff]
    rw [exists_comm, ← forall_given_iff, ← exists_row_iff]
    simp
  case parts =>
    intro a ha slot hslot
    obtain ⟨row, hrow, rfl⟩ := (decode_objectOf_eq_ok_iff r before pad after ms a).mp ha
    obtain ⟨hvalue, habsent⟩ := Field.eq_of_given? ((row_iff r ms row).mp hrow slot hslot)
    exact ⟨fun m hm hkey => Reader.toOption_eq_some_iff.mp (hvalue m hm hkey), habsent⟩
  case nulls => exact r.null_fits_iff
  case order =>
    intro ns _ _ _ h
    rw [toOption_decode_objectOf, toOption_decode_objectOf, row?_eq_of_perm r ms h]

end DashboardScript
