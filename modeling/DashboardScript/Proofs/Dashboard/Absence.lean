import DashboardScript.Proofs.Dashboard.Acceptance
import DashboardScript.Proofs.Json.Rooms

namespace DashboardScript

open Json Json.Grammar

-- A member that may stand in any object that is accepted. Its key means a string, and its value may
-- nest as deep as it likes.
structure AnyMember extends MemberText where
  name : String
  spells : toMemberText.key? = some name
  valid : ∃ depth, IsValue depth value

structure AnyItem extends ItemText where
  valid : ∃ depth, IsValue depth value

-- A member with the key written as it is.
def AnyMember.plain (key : String) (hkey : key.toList.all Glyph.isRaw) (value : List Char)
    (valid : ∃ depth, IsValue depth value) : AnyMember where
  before := ⟨[], by simp⟩
  key := Glyph.raws key.toList hkey
  gap := ⟨[], by simp⟩
  lead := ⟨[], by simp⟩
  value := value
  after := ⟨[], by simp⟩
  name := key
  spells := by
    rw [MemberText.key?, Glyph.meaning_raws, Option.map_some, String.ofList_toList]
  valid := valid

def AnyMember.withValue (m : AnyMember) (text : List Char) (valid : ∃ depth, IsValue depth text) :
    AnyMember :=
  { m with value := text, valid := valid }

def AnyItem.withValue (i : AnyItem) (text : List Char) (valid : ∃ depth, IsValue depth text) :
    AnyItem :=
  { i with value := text, valid := valid }

-- The text of an object with such members, and of an array with such items.
def membersText (pad : Blanks) (ms : List AnyMember) : List Char :=
  bracedText pad (ms.map AnyMember.toMemberText)

def itemsText (pad : Blanks) (items : List AnyItem) : List Char :=
  bracketedText pad (items.map AnyItem.toItemText)

section Valid

theorem exists_isValue_itemsText (pad : Blanks) (items : List AnyItem) :
    ∃ depth, IsValue depth (itemsText pad items) := by
  obtain ⟨depth, hdepth⟩ := exists_depth fun i (_ : i ∈ items) => i.valid
  refine ⟨depth + 1, .array pad fun i hi => ?_⟩
  obtain ⟨item, hitem, rfl⟩ := List.mem_map.mp hi
  exact hdepth item hitem

theorem exists_isValue_membersText (pad : Blanks) (ms : List AnyMember) :
    ∃ depth, IsValue depth (membersText pad ms) := by
  obtain ⟨depth, hdepth⟩ := exists_depth fun m (_ : m ∈ ms) => m.valid
  refine ⟨depth + 1, .object pad fun m hm => ?_⟩
  obtain ⟨member, hmember, rfl⟩ := List.mem_map.mp hm
  exact hdepth member hmember

end Valid

namespace RecordType

-- The levels that are left for the values of the members. Records of a type are all at one depth.
def room : RecordType → Nat
  | dashboard => Decoder.maxDepth - 1
  | panel => Decoder.maxDepth - 3
  | gridPos => Decoder.maxDepth - 4
  | fieldConfig => Decoder.maxDepth - 4
  | fieldDefaults => Decoder.maxDepth - 5
  | thresholds => Decoder.maxDepth - 6
  | panelOptions => Decoder.maxDepth - 4
  | target => Decoder.maxDepth - 5

-- The keys of wordings, of which an empty one is as good as none.
def wordingKeys : List String :=
  ["title", "description", "pluginVersion", "unit", "mode", "pieType", "colorMode", "justifyMode",
    "orientation", "format", "legendFormat", "interval"]

-- The keys of records and of lists that may be empty.
def recordKeys : List String := ["fieldConfig", "defaults", "thresholds", "options"]

def listKeys : List String := ["tags", "panels", "targets"]

-- The keys of values that have to fit and are not looked at.
def unreadKeys : List String := ["schemaVersion", "custom", "color"]

-- How a record says that it has nothing under a key: without a member, or with one whose value has
-- the given text.
inductive Absent (r : RecordType) (key : String) : Option (List Char) → Prop where
  | missing (h : key ∉ requiredKeys) : Absent r key none
  | null (h : key ∉ presentKeys) : Absent r key (some ['n', 'u', 'l', 'l'])
  | emptyText (h : key ∈ wordingKeys) : Absent r key (some (quotedText []))
  | emptyRecord (h : key ∈ recordKeys) (pad : Blanks) : Absent r key (some (bracedText pad []))
  | emptyList (h : key ∈ listKeys) (pad : Blanks) : Absent r key (some (bracketedText pad []))
  | notCollapsed (h : key = "collapsed") : Absent r key (some ['f', 'a', 'l', 's', 'e'])
  | unread (h : key ∈ unreadKeys) {text : List Char}
    (hfits : ∀ slot ∈ r.slots, slot.field.key = key →
      ∃ a, (slot.field.value.within r.room).decode (String.ofList text) = .ok a) :
    Absent r key (some text)

-- The same of a member that is there or not.
def Unsaid (r : RecordType) (key : String) (m : Option AnyMember) : Prop :=
  (∀ n ∈ m, n.name = key) ∧ Absent r key (m.map (·.value))

theorem unsaid_none {r : RecordType} {key : String} (h : key ∉ requiredKeys) : Unsaid r key none :=
  ⟨fun _ hm => absurd hm (Option.not_mem_none _), .missing h⟩

theorem unsaid_some {r : RecordType} {key : String} {m : AnyMember} (hname : m.name = key)
    (h : Absent r key (some m.value)) : Unsaid r key (some m) :=
  ⟨fun _ hn => Option.some.inj hn ▸ hname, h⟩

-- The records that stand under a key of another one, and those in a list there.
inductive Holds : RecordType → String → RecordType → Prop where
  | config : Holds panel "fieldConfig" fieldConfig
  | defaults : Holds fieldConfig "defaults" fieldDefaults
  | thresholds : Holds fieldDefaults "thresholds" thresholds
  | options : Holds panel "options" panelOptions

inductive Lists : RecordType → String → RecordType → Prop where
  | panels : Lists dashboard "panels" panel
  | targets : Lists panel "targets" target

-- Two texts of a record that differ in how the absence of one field is said, in the record itself or
-- in a record within it.
inductive Exchange : RecordType → List Char → List Char → Prop where
  | here {r : RecordType} {key : String} {m n : Option AnyMember} (hkey : key ∈ r.keys)
    (pad : Blanks) (front back : List AnyMember) (hother : ∀ o ∈ front ++ back, o.name ≠ key)
    (hm : Unsaid r key m) (hn : Unsaid r key n) :
    Exchange r (membersText pad (front ++ (m.toList ++ back)))
      (membersText pad (front ++ (n.toList ++ back)))
  | inside {r inner : RecordType} {m : AnyMember} (hholds : Holds r m.name inner) (pad : Blanks)
    (front back : List AnyMember) {text : List Char} (valid : ∃ depth, IsValue depth text)
    (h : Exchange inner m.value text) :
    Exchange r (membersText pad (front ++ m :: back))
      (membersText pad (front ++ m.withValue text valid :: back))
  | listed {r inner : RecordType} {m : AnyMember} (hlists : Lists r m.name inner) (pad : Blanks)
    (front back : List AnyMember) (listPad : Blanks) (before after : List AnyItem) {i : AnyItem}
    (hvalue : m.value = itemsText listPad (before ++ i :: after)) {text : List Char}
    (valid : ∃ depth, IsValue depth text) (h : Exchange inner i.value text) :
    Exchange r (membersText pad (front ++ m :: back))
      (membersText pad (front ++ m.withValue _ (exists_isValue_itemsText listPad
        (before ++ i.withValue text valid :: after)) :: back))

end RecordType

end DashboardScript
