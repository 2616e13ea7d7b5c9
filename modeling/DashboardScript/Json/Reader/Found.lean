import DashboardScript.Json.Reader.Characters
import DashboardScript.Json.Reader.Numeral

namespace DashboardScript.Json.Reader

def word (rest : List Char) (found : Found) : Reader Found := do
  advance
  letters rest
  pure found

-- Takes the next value if it is a scalar, and stops before the bracket of an array or an object.
def next : Reader Found := do
  match ← peekToken with
  | none => failNext (.ended .value)
  | some c =>
    match c with
    | 'n' => word ['u', 'l', 'l'] .null
    | 't' => word ['r', 'u', 'e'] (.boolean true)
    | 'f' => word ['a', 'l', 's', 'e'] (.boolean false)
    | '"' => Found.string <$> quotedString
    | '[' => pure .sequence
    | '{' => pure .map
    | c =>
      if c = '-' || c.isDigit then Found.number <$> number else failNext .expectedValue

def refuse {α : Type} (found : Found) (expected : String) : Reader α :=
  fail (.invalidType found expected)

-- Whether another item of an array follows. The comma before it is taken, the closing bracket not.
def hasItem (first : Bool) : Reader Bool := do
  match ← peekToken with
  | none => failNext (.ended .list)
  | some c =>
    if c = ']' then pure false
    else if first then pure true
    else if c = ',' then do
      advance
      match ← peekToken with
      | none => failNext (.ended .value)
      | some c => if c = ']' then failNext .trailingComma else pure true
    else failNext .expectedItemOrEnd

-- Whether another member of an object follows, which its key has to show.
def hasMember (first : Bool) : Reader Bool := do
  match ← peekToken with
  | none => failNext (.ended .object)
  | some c =>
    if c = '}' then pure false
    else if first then if c = '"' then pure true else failNext .keyNotString
    else if c = ',' then do
      advance
      match ← peekToken with
      | none => failNext (.ended .value)
      | some c =>
        if c = '"' then pure true
        else if c = '}' then failNext .trailingComma
        else failNext .keyNotString
    else failNext .expectedMemberOrEnd

-- The colon between a key and its value.
def colon : Reader Unit := do
  match ← peekToken with
  | none => failNext (.ended .object)
  | some c => if c = ':' then advance else failNext .expectedColon

-- The end of an array of which no further item is wanted.
def closeList : Reader Unit := do
  match ← peekToken with
  | none => failNext (.ended .list)
  | some c =>
    if c = ']' then advance
    else if c = ',' then do
      advance
      if (← peekToken) = some ']' then failNext .trailingComma else failNext .trailingCharacters
    else failNext .trailingCharacters

-- The end of an object, which `hasMember` has seen.
def closeObject : Reader Unit := do
  match ← peekToken with
  | none => failNext (.ended .object)
  | some c =>
    if c = '}' then advance
    else if c = ',' then failNext .trailingComma
    else failNext .trailingCharacters

-- A complaint about an array as a whole is placed behind its bracket where that comes next, else
-- behind the comma and the blanks that come next.
def failList {α : Type} (cause : Cause) : Reader α := do
  let c ← peekToken
  if c = some ']' then advance
  else if c = some ',' then do
    advance
    blank
  fail cause

-- Likewise for an object, of which a comma is not taken.
def failObject {α : Type} (cause : Cause) : Reader α := do
  if (← peekToken) = some '}' then advance
  fail cause

-- The items of an array up to its closing bracket, last one first, behind those taken already. Every
-- round but the first takes a comma, so a text of fewer than `most` characters ends before that many.
def items {α : Type} (item : Reader α) : (most : Nat) → (first : Bool) → (taken : List α) →
    Reader (List α)
  | 0, _, _ => failNext (.ended .list)
  | most + 1, first, taken => do
    if ← hasItem first then do
      let a ← item
      items item most false (a :: taken)
    else pure taken

-- Folds the members of an object up to its closing bracket. `member` is run behind each key.
def members {σ : Type} (member : σ → String → Reader σ) : (most : Nat) → (first : Bool) → σ →
    Reader σ
  | 0, _, _ => failNext (.ended .object)
  | most + 1, first, state => do
    if ← hasMember first then do
      let key ← quotedString
      let state ← member state key
      members member most false state
    else pure state

-- A whole array, read from its opening bracket on.
def bracketed {α : Type} (item : Reader α) : Reader (List α) := do
  advance
  let rest ← get
  let taken ← items item (rest.length + 1) true []
  closeList
  pure taken.reverse

-- A whole object, read from its opening bracket on.
def braced {σ : Type} (member : σ → String → Reader σ) (start : σ) : Reader σ := do
  advance
  let rest ← get
  let state ← members member (rest.length + 1) true start
  closeObject
  pure state

end DashboardScript.Json.Reader
