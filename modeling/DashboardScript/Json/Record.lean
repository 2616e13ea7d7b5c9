import DashboardScript.Json.Decoder
import DashboardScript.Json.Reader.Skip

namespace DashboardScript.Json

-- A member that a record knows. Where it is missing it has the value `absent`, and a member without
-- one is required.
structure Field (α : Type) where
  key : String
  value : Decoder α
  absent : Option α := none

-- One F for each type of a list.
@[reducible] def Row (F : Type → Type) : List Type → Type
  | [] => Unit
  | α :: αs => F α × Row F αs

-- How a record is written: its members in the order that they have in an array.
structure Shape (α : Type) where
  name : String
  types : List Type
  fields : Row Field types
  make : Row Id types → α

namespace Record

-- What a key means while the members in the slots have been read.
inductive Meaning (σ : Type) where
  | unknown
  | repeated
  | fills (slots : Reader σ)

def Meaning.map {σ τ : Type} (f : σ → τ) : Meaning σ → Meaning τ
  | .unknown => .unknown
  | .repeated => .repeated
  | .fills slots => .fills (f <$> slots)

def meaning (room : Nat) (key : String) : (types : List Type) → Row Field types →
    Row Option types → Meaning (Row Option types)
  | [], _, _ => .unknown
  | _ :: types, (field, fields), (slot, slots) =>
    if key = field.key then
      match slot with
      | some _ => .repeated
      | none => .fills do
        let a ← field.value room
        pure (some a, slots)
    else (meaning room key types fields slots).map fun slots => (slot, slots)

def emptySlots : (types : List Type) → Row Option types
  | [] => ()
  | _ :: types => (none, emptySlots types)

-- Reads the member behind its key. A key is refused when it comes twice, an unknown one is passed
-- over.
def member {types : List Type} (fields : Row Field types) (room : Nat) (slots : Row Option types)
    (key : String) : Reader (Row Option types) :=
  match meaning room key types fields slots with
  | .unknown => do
    Reader.colon
    Reader.skipValue
    pure slots
  | .repeated => Reader.failObject (.duplicateField key)
  | .fills value => do
    Reader.colon
    value

-- The values of all members, or the first key that is missing.
def complete : (types : List Type) → Row Field types → Row Option types →
    Except String (Row Id types)
  | [], _, _ => .ok ()
  | _ :: types, (field, fields), (slot, slots) => do
    let a ← match slot.or field.absent with
      | some a => .ok a
      | none => .error field.key
    let rest ← complete types fields slots
    pure (a, rest)

def keyed {types : List Type} (fields : Row Field types) (room : Nat) : Reader (Row Id types) := do
  let slots ← Reader.braced (member fields room) (emptySlots types)
  match complete types fields slots with
  | .ok row => pure row
  | .error key => Reader.fail (.missingField key)

-- The values of the members from position `index` on. Those behind the end of the array are absent.
def elements (expected : String) (room : Nat) : (types : List Type) → Row Field types →
    (index : Nat) → Reader (Row Id types)
  | [], _, _ => pure ()
  | _ :: types, (field, fields), index => do
    if ← Reader.hasItem (index == 0) then do
      let a ← field.value room
      let rest ← elements expected room types fields (index + 1)
      pure (a, rest)
    else
      match field.absent with
      | some a => do
        let rest ← elements expected room types fields (index + 1)
        pure (a, rest)
      | none => Reader.failList (.invalidLength index expected)

def positional {types : List Type} (expected : String) (fields : Row Field types) (room : Nat) :
    Reader (Row Id types) := do
  Reader.advance
  let row ← elements expected room types fields 0
  Reader.closeList
  pure row

end Record

namespace Shape

def description {α : Type} (shape : Shape α) : String := "struct " ++ shape.name

-- What a message says an array of the wrong length should have been.
def lengthDescription {α : Type} (shape : Shape α) : String :=
  let count := shape.types.length
  shape.description ++ " with " ++ toString count ++ if count = 1 then " element" else " elements"

-- A record is an object with its members by key, or an array with its members by position.
def decoder {α : Type} (shape : Shape α) : Decoder α := fun room => do
  match ← Reader.next with
  | .sequence =>
    shape.make <$> Decoder.nested (Record.positional shape.lengthDescription shape.fields) room
  | .map => shape.make <$> Decoder.nested (Record.keyed shape.fields) room
  | found => Reader.refuse found shape.description

end Shape

end DashboardScript.Json
