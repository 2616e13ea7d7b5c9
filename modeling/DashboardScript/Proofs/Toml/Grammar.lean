import DashboardScript.Toml.Written

-- How documents are spelled that give texts to keys, apart from what a scanner makes of them.
namespace DashboardScript.Toml.Grammar

open Scanner (isSpace isPlain isBareKey)

-- Blanks within a line.
abbrev Blanks := { cs : List Char // ∀ c ∈ cs, isSpace c }

-- What a comment says.
abbrev Remark := { cs : List Char // ∀ c ∈ cs, isPlain c }

-- A name without quotes.
abbrev Word := { cs : List Char // cs ≠ [] ∧ ∀ c ∈ cs, isBareKey c }

def Word.name (word : Word) : String := String.ofList word.val

-- A text that stands between double quotes as it is.
abbrev Verbatim := { cs : List Char // ∀ c ∈ cs, isPlain c ∧ c ≠ '"' ∧ c ≠ '\\' }

-- A key of one or more words.
structure Key where
  first : Word
  more : List Word

namespace Key

def path (key : Key) : List String := (key.first :: key.more).map Word.name

def text (key : Key) : List Char := key.first.val ++ key.more.flatMap fun word => '.' :: word.val

end Key

-- What may stand behind the rest of a line.
structure Ending where
  pad : Blanks
  remark : Option Remark

namespace Ending

def remarkText (ending : Ending) : List Char := ending.remark.elim [] fun cs => '#' :: cs.val

def text (ending : Ending) : List Char := ending.pad.val ++ ending.remarkText

end Ending

inductive Break where
  | feed
  | returnFeed
  deriving DecidableEq

def Break.text : Break → List Char
  | .feed => ['\n']
  | .returnFeed => ['\r', '\n']

-- A line, apart from its break.
inductive LineText where
  | blank (ending : Ending)
  | header (lead pad : Blanks) (key : Key) (gap : Blanks) (ending : Ending)
  | entry (lead : Blanks) (key : Key) (gap pad : Blanks) (value : Verbatim) (ending : Ending)

-- What a line says.
inductive Statement where
  | header (path : List String)
  | entry (path : List String) (text : String)
  deriving DecidableEq

namespace LineText

def text : LineText → List Char
  | blank ending => ending.text
  | header lead pad key gap ending =>
    lead.val ++ '[' :: (pad.val ++ (key.text ++ (gap.val ++ ']' :: ending.text)))
  | entry lead key gap pad value ending =>
    lead.val ++ (key.text ++ (gap.val ++ '=' :: (pad.val ++ '"' :: (value.val ++ '"' :: ending.text))))

def statement? : LineText → Option Statement
  | blank _ => none
  | header _ _ key _ _ => some (.header key.path)
  | entry _ key _ _ value _ => some (.entry key.path (String.ofList value.val))

end LineText

-- Lines with a break between them.
structure Document where
  lines : List (LineText × Break)
  last : LineText

namespace Document

def linesText (lines : List (LineText × Break)) (last : LineText) : List Char :=
  (lines.flatMap fun line => line.1.text ++ line.2.text) ++ last.text

def said (lines : List (LineText × Break)) (last : LineText) : List Statement :=
  (lines.flatMap fun line => line.1.statement?.toList) ++ last.statement?.toList

def text (document : Document) : List Char := linesText document.lines document.last

def statements (document : Document) : List Statement := said document.lines document.last

end Document

-- The texts by the names that lead to them, behind a header.
def given (header : List String) : List Statement → List (List String × String)
  | [] => []
  | .header path :: rest => given path rest
  | .entry path text :: rest => (header ++ path, text) :: given header rest

end DashboardScript.Toml.Grammar
