import DashboardScript.Toml.Fault

namespace DashboardScript.Toml

-- Takes something from the front of a text.
abbrev Scanner (α : Type) := StateT (List Char) (Except Fault) α

namespace Scanner

-- Refuses the text in front of its next character.
def refuse {α : Type} (flaw : Flaw) : Scanner α := fun rest => .error (Fault.placed flaw rest 0)

-- Refuses the text for its next character.
def refuseNext {α : Type} (flaw : Flaw) : Scanner α := fun rest => .error (Fault.placed flaw rest 1)

def peek : Scanner (Option Char) := fun rest => .ok (rest.head?, rest)

def advance : Scanner Unit := fun rest => .ok ((), rest.tail)

-- Takes the characters up to the first one that fails the test.
def run (test : Char → Bool) : Scanner (List Char) := fun rest =>
  .ok (rest.takeWhile test, rest.dropWhile test)

-- Takes exactly these characters, or nothing.
def literal? (word : List Char) : Scanner Bool := fun rest =>
  if word.isPrefixOf rest then .ok (true, rest.drop word.length) else .ok (false, rest)

def isSpace (c : Char) : Bool := c == ' ' || c == '\t'

def spaces : Scanner Unit := do
  let _ ← run isSpace

-- Takes the end of a line, if one comes next. A return is none by itself.
def newline? : Scanner Bool := do
  if ← literal? ['\n'] then pure true
  else if ← literal? ['\r', '\n'] then pure true
  else if (← peek) = some '\r' then refuse .loneReturn
  else pure false

-- A character that text and comments may hold: a tab, or one that is no control.
def isPlain (c : Char) : Bool := c == '\t' || (' ' ≤ c && c != '\x7f')

def endsLine (c : Char) : Bool := c == '\n' || c == '\r'

-- A comment up to the end of its line, if one starts here.
def comment : Scanner Unit := do
  if (← peek) = some '#' then
    let _ ← run isPlain
    unless (← peek).all endsLine do refuse .commentCharacter

-- Blanks and a comment up to the end of the line, which is taken with it.
def lineEnd : Scanner Unit := do
  spaces
  comment
  unless ← newline? do
    if (← peek).isSome then refuse .restOfLine

-- Blanks, comments and line ends, as they may stand between the parts of an array or of a table in
-- braces.
def gap : (most : Nat) → Scanner Unit
  | 0 => pure ()
  | most + 1 => do
    spaces
    comment
    if ← newline? then gap most

def anyGap : Scanner Unit := do
  let rest ← get
  gap (rest.length + 1)

end Scanner

end DashboardScript.Toml
