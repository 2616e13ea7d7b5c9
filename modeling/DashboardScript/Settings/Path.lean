import DashboardScript.Settings.Tree
import DashboardScript.Text.Digits

namespace DashboardScript.Settings.Tree

def isKeyCharacter (c : Char) : Bool := c.isAlphanum || c == '_' || c == '-'

def isSpace (c : Char) : Bool := c == ' ' || c == '\t'

-- A position between brackets, with blanks around it, and what follows.
def position? (cs : List Char) : Option (Int × List Char) := do
  let cs := cs.dropWhile isSpace
  let (negative, cs) := match cs with
    | '-' :: rest => (true, rest)
    | cs => (false, cs)
  let ds := cs.takeWhile Char.isDigit
  guard (!ds.isEmpty)
  let n := Text.decimalValue ds
  let index : Int := if negative then -(n : Int) else n
  guard (-0x8000000000000000 ≤ index && index ≤ 0x7fffffffffffffff)
  match (cs.drop ds.length).dropWhile isSpace with
  | ']' :: rest => some (index, rest)
  | _ => none

def steps? : (most : Nat) → List Char → Option (List Step)
  | _, [] => some []
  | 0, _ => none
  | most + 1, '.' :: cs => do
    let key := cs.takeWhile isKeyCharacter
    guard (!key.isEmpty)
    let steps ← steps? most (cs.drop key.length)
    some (.key (String.ofList key) :: steps)
  | most + 1, '[' :: cs => do
    let (index, rest) ← position? cs
    let steps ← steps? most rest
    some (.index index :: steps)
  | _, _ => none

-- The steps that a key at the root of a file stands for: keys behind dots and positions in brackets.
-- A key of another form is a single step.
def rootSteps (key : String) : List Step :=
  let cs := key.toList
  let first := cs.takeWhile isKeyCharacter
  let steps := do
    guard (!first.isEmpty)
    let steps ← steps? cs.length (cs.drop first.length)
    some (Step.key (String.ofList first) :: steps)
  steps.getD [.key key]

-- All entries of a file in one tree.
def ofEntries (entries : List (String × Tree)) : Tree :=
  entries.foldl (fun tree (key, value) => tree.alter (rootSteps key) (overlay value))
    (.table false [])

end DashboardScript.Settings.Tree
