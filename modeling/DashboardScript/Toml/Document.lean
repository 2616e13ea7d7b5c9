import DashboardScript.Toml.Table
import DashboardScript.Toml.Written

namespace DashboardScript.Toml

def maxKeyLength : Nat := 80

-- The names in a key. The first part that is at fault counts, then the length of the key.
def WrittenKey.path (key : WrittenKey) : Except Fault (List String) := do
  let path ← key.mapM KeyPart.name
  if path.length ≤ maxKeyLength then .ok path else .error ⟨.keyTooLong, none⟩

-- Places a clash at the part of the key that it concerns.
def WrittenKey.fault (key : WrittenKey) (clash : Entries.Clash) : Fault :=
  ⟨clash.flaw, (key.drop (key.length - clash.left)).head?.map KeyPart.place⟩

mutual

-- The first fault counts, in the order of the text.
def Written.value : Written → Except Fault Value
  | .scalar value => value
  | .array items => Value.array <$> itemValues [] items
  | .table entries => do
    let entries ← inlineTable [] entries
    return .table (finishedEntries entries)

-- The values of an array, behind those taken already, last one first.
def itemValues (taken : List Value) : List Written → Except Fault (List Value)
  | [] => .ok taken.reverse
  | item :: rest => do
    let value ← item.value
    itemValues (value :: taken) rest

def inlineTable (entries : Entries) : List (WrittenKey × Written) → Except Fault Entries
  | [] => .ok entries
  | (key, item) :: rest => do
    let path ← key.path
    let value ← item.value
    let entries ← (entries.assign value path).mapError key.fault
    inlineTable entries rest

end

-- A document while it is read: all its entries, and the table that the last header opened.
structure Draft where
  entries : Entries
  header : List String

namespace Draft

def start : Draft := ⟨[], []⟩

-- Opens what a header names by its last key.
def opened (draft : Draft) (openLast : String → Entries → Except Entries.Clash Entries)
    (path : List String) : Except Entries.Clash Draft :=
  match path.getLast? with
  | none => .ok draft
  | some last => do
    let entries ← draft.entries.within path.dropLast (openLast last)
    return ⟨entries, path⟩

def assigned (draft : Draft) (path : List String) (value : Value) : Except Entries.Clash Draft := do
  let entries ← draft.entries.within draft.header (Entries.assign value path)
  return { draft with entries }

def add (draft : Draft) : Line → Except Fault Draft
  | .table key => do
    let path ← key.path
    (draft.opened Entries.openTable path).mapError key.fault
  | .element key => do
    let path ← key.path
    (draft.opened Entries.openElement path).mapError key.fault
  | .entry key item => do
    let path ← key.path
    let value ← item.value
    (draft.assigned path value).mapError key.fault

end Draft

-- The entries of a document. A fault of the layout counts before any other.
def parse (text : String) : Except Fault (List (String × Value)) := do
  let lines ← layOut text
  let draft ← lines.foldlM Draft.add Draft.start
  return finishedEntries draft.entries

end DashboardScript.Toml
