import DashboardScript.Json.Value
import DashboardScript.Text.Quoted
import DashboardScript.Toml.Value

namespace DashboardScript.Settings

-- A value of a configuration file, whatever the format of the file. What stands in the file as one
-- piece is `sourced`, and a complaint about it can name the file; a table that is put together from
-- its entries is not. The entries of a table have different keys.
inductive Tree where
  | unit (sourced : Bool)
  | boolean (b : Bool)
  | integer (n : Int)
  | real (x : Binary64)
  | infinity (negative : Bool)
  | notANumber
  | text (s : String)
  | list (sourced : Bool) (items : List Tree)
  | table (sourced : Bool) (entries : List (String × Tree))
  deriving Inhabited

namespace Tree

mutual

def ofJson : Json.Value → Tree
  | .null => .unit true
  | .boolean b => .boolean b
  | .number (.integer n) => .integer n
  | .number (.real x) => .real x
  | .string s => .text s
  | .array items => .list true (ofJsonItems items)
  | .object members => .table true (ofJsonMembers members)

def ofJsonItems : List Json.Value → List Tree
  | [] => []
  | v :: rest => ofJson v :: ofJsonItems rest

def ofJsonMembers : List (String × Json.Value) → List (String × Tree)
  | [] => []
  | (key, v) :: rest => (key, ofJson v) :: ofJsonMembers rest

end

mutual

-- A number that has no value is at fault wherever it stands. The first one counts.
def ofToml : Toml.Value → Except Toml.NumberFault Tree
  | .string s => .ok (.text s)
  | .integer n => .ok (.integer n)
  | .real x => .ok (.real x)
  | .infinity negative => .ok (.infinity negative)
  | .notANumber => .ok .notANumber
  | .unfit fault => .error fault
  | .boolean b => .ok (.boolean b)
  | .moment shown => .ok (.text shown)
  | .array items => Tree.list true <$> ofTomlItems items
  | .table entries => Tree.table true <$> ofTomlEntries entries

def ofTomlItems : List Toml.Value → Except Toml.NumberFault (List Tree)
  | [] => .ok []
  | v :: rest => do
    let tree ← ofToml v
    return tree :: (← ofTomlItems rest)

def ofTomlEntries : List (String × Toml.Value) → Except Toml.NumberFault (List (String × Tree))
  | [] => .ok []
  | (key, v) :: rest => do
    let tree ← ofToml v
    return (key, tree) :: (← ofTomlEntries rest)

end

-- A number is written with all its places, and the middle of two decimals goes up.
def layout (fraction : Bool) : Binary64.Layout := ⟨none, fraction, .up⟩

def infinityText (negative : Bool) : String := if negative then "-inf" else "inf"

def booleanText (b : Bool) : String := if b then "true" else "false"

-- What the root of a file is called that should be a table.
def rootPhrase : Tree → String
  | .unit _ => "unit value"
  | .boolean b => "boolean `" ++ booleanText b ++ "`"
  | .integer n =>
    (if 0x8000000000000000 ≤ n then "64-bit unsigned integer `" else "64-bit integer `") ++
      toString n ++ "`"
  | .real x => "floating point `" ++ (layout false).text x ++ "`"
  | .infinity negative => "floating point `" ++ infinityText negative ++ "`"
  | .notANumber => "floating point `NaN`"
  | .text s => "string " ++ Text.quoted s
  | .list .. => "sequence"
  | .table .. => "map"

-- What a value is called that should be a group of settings.
def groupPhrase : Tree → String
  | .integer n => "integer `" ++ toString n ++ "`"
  | .real x => "floating point `" ++ (layout true).text x ++ "`"
  | tree => tree.rootPhrase

-- The text that a setting is given by. Any scalar but null has one; for the rest the answer is what
-- it is called, and whether it is sourced.
def text? : Tree → Except (String × Bool) String
  | .text s => .ok s
  | .boolean b => .ok (booleanText b)
  | .integer n => .ok (toString n)
  | .real x => .ok ((layout false).text x)
  | .infinity negative => .ok (infinityText negative)
  | .notANumber => .ok "NaN"
  | .unit sourced => .error ("unit value", sourced)
  | .list sourced _ => .error ("sequence", sourced)
  | .table sourced _ => .error ("map", sourced)

def entry? (key : String) : Tree → Option Tree
  | .table _ entries => entries.lookup key
  | _ => none

-- Changes the entry at a key, which is null before where there is none.
def alterEntry (key : String) (change : Tree → Tree) : List (String × Tree) → List (String × Tree)
  | [] => [(key, change (.unit false))]
  | (k, t) :: rest => if k = key then (k, change t) :: rest else (k, t) :: alterEntry key change rest

-- The same in a tree, which becomes a table if it is none.
def alterKey (key : String) (change : Tree → Tree) : Tree → Tree
  | .table sourced entries => .table sourced (alterEntry key change entries)
  | _ => .table false (alterEntry key change [])

def absent (count : Nat) : List Tree := List.replicate count (.unit false)

-- Changes the item at a position, counted from the end if it is negative. The list grows at either
-- end where it has no such position.
def alterIndex (index : Int) (change : Tree → Tree) (tree : Tree) : Tree :=
  let (sourced, items) := match tree with
    | .list sourced items => (sourced, items)
    | _ => (false, [])
  let (items, position) :=
    if 0 ≤ index then (items ++ absent (index.toNat + 1 - items.length), index.toNat)
    else if index.natAbs ≤ items.length then (items, items.length - index.natAbs)
    else (absent (index.natAbs - items.length) ++ items, 0)
  .list sourced (items.modify position change)

-- One step into a tree.
inductive Step where
  | key (k : String)
  | index (i : Int)
  deriving DecidableEq

def alter (steps : List Step) (change : Tree → Tree) : Tree → Tree :=
  match steps with
  | [] => change
  | .key k :: steps => alterKey k (alter steps change)
  | .index i :: steps => alterIndex i (alter steps change)

mutual

-- Lays a value over what was there. Tables are joined entry by entry, anything else is replaced.
def overlay : Tree → Tree → Tree
  | .table _ entries, old =>
    overlayEntries entries (match old with
      | .table sourced olds => .table sourced olds
      | _ => .table false [])
  | value, _ => value

def overlayEntries : List (String × Tree) → Tree → Tree
  | [], tree => tree
  | (key, value) :: rest, tree => overlayEntries rest (tree.alterKey key (overlay value))

end

end Tree

end DashboardScript.Settings
