import DashboardScript.Json.Failure

namespace DashboardScript.Json

open Text (utf8Length)

-- Takes something from the front of a text and leaves the rest.
abbrev Reader (α : Type) := StateT (List Char) (Except Failure) α

namespace Reader

-- Refuses the text behind what has been taken.
def fail {α : Type} (cause : Cause) : Reader α := fun rest =>
  .error ⟨cause, utf8Length rest, false⟩

-- Refuses the text for its next byte, which stays untaken.
def failNext {α : Type} (cause : Cause) : Reader α := fun rest =>
  .error ⟨cause, utf8Length rest, true⟩

-- Takes so many bytes more, which may end within a character, and refuses the text behind them.
def failPast {α : Type} (count : Nat) (cause : Cause) : Reader α := fun rest =>
  .error ⟨cause, utf8Length rest - count, false⟩

def peek : Reader (Option Char) := fun rest => .ok (rest.head?, rest)

def advance : Reader Unit := fun rest => .ok ((), rest.tail)

def isBlank (c : Char) : Bool := c == ' ' || c == '\n' || c == '\t' || c == '\r'

def blank : Reader Unit := fun rest => .ok ((), rest.dropWhile isBlank)

-- Skips blanks and looks at what comes then.
def peekToken : Reader (Option Char) := do
  blank
  peek

-- The letters of a literal behind its first one. A wrong letter is taken before it is refused.
def letters : List Char → Reader Unit
  | [] => pure ()
  | letter :: word => do
    match ← peek with
    | none => fail (.ended .value)
    | some c =>
      if c = letter then do
        advance
        letters word
      else failPast 1 .expectedWord

-- The end of a whole text: only blanks may be left.
def finish : Reader Unit := do
  match ← peekToken with
  | none => pure ()
  | some _ => failNext .trailingCharacters

-- Runs a reader on a text and places its failure there.
def parse {α : Type} (reader : Reader α) (text : String) : Except Error α :=
  match reader text.toList with
  | .ok (a, _) => .ok a
  | .error f => .error (f.error text.toList)

end Reader

end DashboardScript.Json
