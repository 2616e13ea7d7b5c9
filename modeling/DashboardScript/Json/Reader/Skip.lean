import DashboardScript.Json.Reader.Found

namespace DashboardScript.Json

-- The kind of a bracket that is open around a skipped value.
inductive Bracket where
  | list
  | object
  deriving DecidableEq

namespace Bracket

def closing : Bracket → Char
  | .list => ']'
  | .object => '}'

def enclosure : Bracket → Enclosure
  | .list => .list
  | .object => .object

def expected : Bracket → Cause
  | .list => .expectedItemOrEnd
  | .object => .expectedMemberOrEnd

end Bracket

namespace Reader

-- The rest of a string behind its opening quote. Escapes are checked for their form alone, and a
-- control character stays untaken.
def skipCharacters : (most : Nat) → Reader Unit
  | 0 => fail (.ended .string)
  | most + 1 => do
    match ← peek with
    | none => fail (.ended .string)
    | some c =>
      if c = '"' then advance
      else if c = '\\' then do
        advance
        match ← peek with
        | none => fail (.ended .string)
        | some c =>
          if (shortEscape? c).isSome then advance
          else if c = 'u' then do
            advance
            let _ ← hexCode
          else failPast 1 .invalidEscape
        skipCharacters most
      else if c < ' ' then fail .controlCharacter
      else do
        advance
        skipCharacters most

def skipString : Reader Unit := do
  advance
  let rest ← get
  skipCharacters rest.length

-- What comes before the value of an item: nothing in an array, a key and a colon in an object.
def skipKey : Bracket → Reader Unit
  | .list => pure ()
  | .object => do
    match ← peekToken with
    | none => failNext (.ended .object)
    | some c =>
      if c = '"' then do
        skipString
        colon
      else failNext .keyNotString

-- Behind a value within the given brackets, innermost first: closes as many of them as end here. The
-- answer is the brackets around the next value, none behind the outermost one.
def skipClosings : List Bracket → Reader (Option (List Bracket))
  | [] => pure none
  | bracket :: outer => do
    match ← peekToken with
    | none => failNext (.ended bracket.enclosure)
    | some c =>
      if c = ',' then do
        advance
        skipKey bracket
        pure (some (bracket :: outer))
      else if c = bracket.closing then do
        advance
        skipClosings outer
      else failNext bracket.expected

-- Behind an opening bracket, with the same answer.
def skipOpening (bracket : Bracket) (outer : List Bracket) : Reader (Option (List Bracket)) := do
  advance
  match ← peekToken with
  | none => failNext (.ended bracket.enclosure)
  | some c =>
    if c = bracket.closing then do
      advance
      skipClosings outer
    else do
      skipKey bracket
      pure (some (bracket :: outer))

-- Takes a scalar or an opening bracket, and the brackets that close behind it.
def skipStep (around : List Bracket) : Reader (Option (List Bracket)) := do
  match ← peekToken with
  | none => failNext (.ended .value)
  | some c =>
    match c with
    | '[' => skipOpening .list around
    | '{' => skipOpening .object around
    | 'n' => do
      advance
      letters ['u', 'l', 'l']
      skipClosings around
    | 't' => do
      advance
      letters ['r', 'u', 'e']
      skipClosings around
    | 'f' => do
      advance
      letters ['a', 'l', 's', 'e']
      skipClosings around
    | '"' => do
      skipString
      skipClosings around
    | c =>
      if c = '-' || c.isDigit then do
        let _ ← numeral .invalidNumber
        skipClosings around
      else failNext .expectedValue

-- Every round takes at least one character.
def skipRounds : (most : Nat) → (around : List Bracket) → Reader Unit
  | 0, _ => failNext (.ended .value)
  | most + 1, around => do
    match ← skipStep around with
    | none => pure ()
    | some around => skipRounds most around

-- Passes over a value of any shape and depth. Only its grammar is checked: numbers may be out of
-- range and surrogates alone.
def skipValue : Reader Unit := do
  let rest ← get
  skipRounds (rest.length + 1) []

end Reader

end DashboardScript.Json
