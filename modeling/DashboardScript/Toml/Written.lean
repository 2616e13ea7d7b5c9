import DashboardScript.Toml.Quoted
import DashboardScript.Toml.Scalar

namespace DashboardScript.Toml

-- One part of a key, and where it stands.
structure KeyPart where
  name : Except Fault String
  place : Place

-- The parts of a key with dots between them.
abbrev WrittenKey := List KeyPart

-- A value as it is written. Its layout is sound, but its scalars and keys may be at fault.
inductive Written where
  | scalar (value : Except Fault Value)
  | array (items : List Written)
  | table (entries : List (WrittenKey × Written))

-- A line that says something.
inductive Line where
  -- a header, which opens a table
  | table (key : WrittenKey)
  -- a header in double brackets, which opens the next table of an array
  | element (key : WrittenKey)
  | entry (key : WrittenKey) (value : Written)

namespace Scanner

-- Whether a character ends a word. Quotes inside a word belong to it.
def endsWord (c : Char) : Bool :=
  isSpace c || endsLine c || c == ',' || c == '[' || c == ']' || c == '\x7b' || c == '\x7d' ||
    c == '#' || c == '='

def isQuote (c : Char) : Bool := c == '"' || c == '\x27'

def isBareKey (c : Char) : Bool := c.isAlphanum || c == '_' || c == '-'

-- The name that a word gives to a part of a key.
def bareName (word : List Char) : Except Blemish String :=
  match word, word.dropWhile isBareKey with
  | [], _ => .error (.of .emptyKey [])
  | word, [] => .ok (String.ofList word)
  | _, stray => .error (.before .keyCharacter stray)

-- The name that a text gives to a part of a key. It has to stand on one line.
def quotedName (quoted : Quoted) : Except Blemish String :=
  if quoted.kind.isLong then .error ⟨.longKey quoted.kind, quoted.length, quoted.width⟩
  else quoted.text

-- One part of a key: a text or a word. It may be empty.
def keyPart : Scanner KeyPart := do
  let start ← get
  match ← quoted? with
  | some quoted => do
    let behind ← get
    pure ⟨(quotedName quoted).mapError (Blemish.fault start behind), start, quoted.width⟩
  | none => do
    let word ← run fun c => !endsWord c && c != '.'
    let behind ← get
    pure ⟨(bareName word).mapError (Blemish.fault start behind), start, Text.utf8Length word⟩

-- The parts of a key from one part on.
def keyParts : (most : Nat) → Scanner WrittenKey
  | 0 => refuse .missingKey
  | most + 1 => do
    spaces
    let part ← keyPart
    let behind ← get
    if (behind.dropWhile isSpace).head? = some '.' then do
      spaces
      advance
      let parts ← keyParts most
      pure (part :: parts)
    else pure [part]

-- A key with dots. Blanks behind it are left.
def key : Scanner WrittenKey := do
  let rest ← get
  keyParts (rest.length + 1)

-- Whether a key ends in a part at all.
def isComplete (key : WrittenKey) : Bool := key.getLast?.any fun part => part.place.width != 0

-- The characters of a word, last one first, and what follows them. Words with blanks between them are
-- one word. A text starts where a quote follows a dot, which is told by `fresh`.
def wordFrom (fresh : Bool) (taken : List Char) : List Char → List Char × List Char
  | [] => (taken, [])
  | c :: rest =>
    if isSpace c then
      if (rest.dropWhile isSpace).head?.any fun d => !endsWord d && !isQuote d then
        wordFrom fresh (c :: taken) rest
      else (taken, c :: rest)
    else if endsWord c || (fresh && isQuote c) then (taken, c :: rest)
    else wordFrom (c == '.') (c :: taken) rest

def scalar : Scanner Written := do
  let start ← get
  match ← quoted? with
  | some quoted => do
    let behind ← get
    pure (.scalar ((Value.string <$> quoted.text).mapError (Blemish.fault start behind)))
  | none => do
    let (taken, behind) := wordFrom false [] start
    set behind
    pure (.scalar ((Scalar.value taken.reverse).mapError (Blemish.fault start behind)))

-- A value that is missing where one may be written.
def missing : Scanner Written := fun rest =>
  .ok (.scalar (.error (Fault.placed .unquoted rest 0)), rest)

-- Refuses the end of the text, or a comma, where something has to come first.
def beforeMember (enclosure : Enclosure) : Scanner Unit := do
  match ← peek with
  | none => refuse (.unclosed enclosure)
  | some ',' => refuseNext (.extraComma enclosure)
  | some _ => pure ()

-- Refuses what stands behind a member in place of a comma or a bracket.
def refuseNeighbour {α : Type} (enclosure : Enclosure) : Scanner α := do
  match ← peek with
  | none => refuse (.unclosed enclosure)
  | some '=' => refuseNext .extraEquals
  | some _ => refuse (.missingComma enclosure)

-- The items of an array up to its bracket, last one first.
def arrayItems (value : Scanner Written) : (most : Nat) → (taken : List Written) →
    Scanner (List Written)
  | 0, _ => refuse (.unclosed .array)
  | most + 1, taken => do
    anyGap
    if ← literal? [']'] then pure taken
    else do
      beforeMember .array
      let item ← value
      anyGap
      if ← literal? [','] then arrayItems value most (item :: taken)
      else if ← literal? [']'] then pure (item :: taken)
      else refuseNeighbour .array

-- What follows the key of an entry in braces. The value, and the equals sign before it, may be missing
-- at the end.
def inlineValue (value : Scanner Written) : Scanner Written := do
  anyGap
  if (← peek) = some '\x7d' then missing
  else do
    beforeMember .inlineTable
    unless ← literal? ['='] do refuse .missingEquals
    anyGap
    if (← peek) = some '\x7d' then missing
    else do
      beforeMember .inlineTable
      value

-- The entries of a table in braces, last one first.
def inlineEntries (value : Scanner Written) : (most : Nat) → (taken : List (WrittenKey × Written)) →
    Scanner (List (WrittenKey × Written))
  | 0, _ => refuse (.unclosed .inlineTable)
  | most + 1, taken => do
    anyGap
    if ← literal? ['\x7d'] then pure taken
    else do
      beforeMember .inlineTable
      if (← peek).any fun c => endsWord c && c != '=' then refuse .missingKey
      let key ← key
      let item ← inlineValue value
      anyGap
      if ← literal? [','] then inlineEntries value most ((key, item) :: taken)
      else if ← literal? ['\x7d'] then pure ((key, item) :: taken)
      else refuseNeighbour .inlineTable

-- A value of any kind. `inner` takes the values in its brackets, and where it is missing, brackets
-- nest too deep.
def valueAround (inner : Option (Scanner Written)) : Scanner Written := do
  match ← peek with
  | some '=' => refuseNext .extraEquals
  | some ']' => refuse (.unopened .array)
  | some '\x7d' => refuse (.unopened .inlineTable)
  | some '[' =>
    match inner with
    | none => refuseNext .tooDeep
    | some value => do
      advance
      let rest ← get
      let taken ← arrayItems value (rest.length + 1) []
      pure (.array taken.reverse)
  | some '\x7b' =>
    match inner with
    | none => refuseNext .tooDeep
    | some value => do
      advance
      let rest ← get
      let taken ← inlineEntries value (rest.length + 1) []
      pure (.table taken.reverse)
  | _ => scalar

-- A value in which arrays and tables nest to a depth of `room` at most.
def value : (room : Nat) → Scanner Written
  | 0 => valueAround none
  | room + 1 => valueAround (some (value room))

def maxDepth : Nat := 80

-- Passes over what is left of a line, whatever it is. Texts may take it over several lines.
def skipLine : (most : Nat) → Scanner Unit
  | 0 => pure ()
  | most + 1 => do
    match ← peek with
    | none => pure ()
    | some c =>
      if c == '#' || endsLine c then lineEnd
      else do
        if isQuote c then
          let _ ← quoted?
        else if endsWord c || c == '.' then advance
        else
          let _ ← run fun c => !endsWord c && c != '.'
        skipLine most

-- A header behind its opening brackets, with its line. One that breaks off in its key is at fault for
-- that key only.
def header (enclosure : Enclosure) : Scanner WrittenKey := do
  let key ← key
  let behind ← get
  spaces
  if ← literal? [']'] then do
    if enclosure = .elementHeader then
      unless ← literal? [']'] do refuse (.unclosed enclosure)
    lineEnd
  else if isComplete key then fun _ => .error (Fault.placed (.unclosed enclosure) behind 0)
  else do
    let rest ← get
    skipLine (rest.length + 1)
  pure key

-- A key with its value and its line. The value may be missing at the end.
def entry : Scanner Line := do
  let key ← key
  spaces
  unless ← literal? ['='] do refuse .keyWithoutValue
  spaces
  let value ←
    if (← peek).all fun c => c == '#' || c == ',' || endsLine c then missing else value maxDepth
  lineEnd
  pure (.entry key value)

-- One line with its end.
def line : Scanner (Option Line) := do
  spaces
  match ← peek with
  | none => pure none
  | some c =>
    if c == '#' || endsLine c then do
      lineEnd
      pure none
    else if ← literal? ['[', '['] then (some ∘ Line.element) <$> header .elementHeader
    else if ← literal? ['['] then (some ∘ Line.table) <$> header .header
    else if c == ']' then refuse (.unopened .header)
    else if c == ',' || c == '\x7b' || c == '\x7d' then refuse .missingKey
    else some <$> entry

-- The lines up to the end of the text, last one first. Each line but the last one takes a character.
def lines : (most : Nat) → (taken : List Line) → Scanner (List Line)
  | 0, _ => refuse .restOfLine
  | most + 1, taken => do
    let taken := (← line).toList ++ taken
    if (← peek).isNone then pure taken else lines most taken

end Scanner

-- A document laid out in lines. A byte-order mark at its start is no part of it.
def layOut (text : String) : Except Fault (List Line) := do
  let chars := match text.toList with
    | '\ufeff' :: rest => rest
    | chars => chars
  let (taken, _) ← Scanner.lines (chars.length + 1) [] chars
  return taken.reverse

end DashboardScript.Toml
