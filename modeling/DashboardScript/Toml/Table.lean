import DashboardScript.Toml.Fault
import DashboardScript.Toml.Value

namespace DashboardScript.Toml

-- How a table came to be, which decides what may be added to it.
inductive Origin where
  -- passed through on the way to another table
  | passed
  -- made by a key with dots
  | dotted
  -- opened by a header of its own
  | opened
  deriving DecidableEq

-- A table that is still being written. A value in it is finished.
inductive Node where
  | value (v : Value)
  | table (origin : Origin) (entries : List (String × Node))
  -- the elements of an array of tables, the open one first
  | tables (last : List (String × Node)) (others : List (List (String × Node)))
  deriving Inhabited

abbrev Entries := List (String × Node)

namespace Entries

def find? (key : String) (entries : Entries) : Option Node := List.lookup key entries

-- Puts a node at its key. The keys stay in order.
def set (key : String) (node : Node) : Entries → Entries
  | [] => [(key, node)]
  | (k, n) :: rest =>
    if k = key then (key, node) :: rest
    else if key < k then (key, node) :: (k, n) :: rest
    else (k, n) :: set key node rest

-- Why something has no place in a table. `left` counts the parts of its key from the one at fault on.
structure Clash where
  flaw : Flaw
  left : Nat
  deriving DecidableEq

-- Changes the table that the parts of a header before the last one name. Tables are made where they
-- are missing, and of an array of tables the last one is meant.
def within (path : List String) (change : Entries → Except Clash Entries) (entries : Entries) :
    Except Clash Entries :=
  match path with
  | [] => change entries
  | key :: path => do
    let node ← match entries.find? key with
      | none => Node.table .passed <$> within path change []
      | some (.table origin inner) => Node.table origin <$> within path change inner
      | some (.tables last others) => (Node.tables · others) <$> within path change last
      | some (.value v) => .error ⟨.notTable v.kind, path.length + 2⟩
    return entries.set key node

-- A header opens a table that no header or key with dots has made before.
def openTable (key : String) (entries : Entries) : Except Clash Entries :=
  match entries.find? key with
  | none => .ok (entries.set key (.table .opened []))
  | some (.table .passed inner) => .ok (entries.set key (.table .opened inner))
  | some _ => .error ⟨.repeatedKey, 1⟩

-- A header in double brackets adds a table to an array of tables.
def openElement (key : String) (entries : Entries) : Except Clash Entries :=
  match entries.find? key with
  | none => .ok (entries.set key (.tables [] []))
  | some (.tables last others) => .ok (entries.set key (.tables [] (last :: others)))
  | some _ => .error ⟨.repeatedKey, 1⟩

-- Adds a value. The tables that the dots lead through are made here or were made by dots. One that a
-- header has passed joins them, and no header can open it any more. The last table of an array can be
-- passed, but nothing is added to it.
def assign (value : Value) (path : List String) (entries : Entries) : Except Clash Entries :=
  match path with
  | [] => .ok entries
  | [key] =>
    match entries.find? key with
    | none => .ok (entries.set key (.value value))
    | some _ => .error ⟨.repeatedKey, 1⟩
  | key :: path => do
    let node ← match entries.find? key with
      | none => Node.table .dotted <$> assign value path []
      | some (.table .opened _) => .error ⟨.repeatedKey, path.length + 1⟩
      | some (.table _ inner) => Node.table .dotted <$> assign value path inner
      | some (.tables last others) =>
        if path.length = 1 then .error ⟨.repeatedKey, 1⟩
        else (Node.tables · others) <$> assign value path last
      | some (.value v) => .error ⟨.notTable v.kind, path.length + 1⟩
    return entries.set key node

end Entries

mutual

def Node.finished : Node → Value
  | .value v => v
  | .table _ entries => .table (finishedEntries entries)
  | .tables last others => .array (finishedTables others [.table (finishedEntries last)])

def finishedEntries : List (String × Node) → List (String × Value)
  | [] => []
  | (key, node) :: rest => (key, node.finished) :: finishedEntries rest

-- The elements in their order, before those given.
def finishedTables : List (List (String × Node)) → List Value → List Value
  | [], after => after
  | entries :: others, after => finishedTables others (.table (finishedEntries entries) :: after)

end

end DashboardScript.Toml
