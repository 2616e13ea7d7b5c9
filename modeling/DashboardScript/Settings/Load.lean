import DashboardScript.Json.Decoder
import DashboardScript.Settings.Choice
import DashboardScript.Settings.Path
import DashboardScript.Text.Utf8
import DashboardScript.Toml.Document

namespace DashboardScript.Settings

-- Why a configuration file gives no settings.
inductive Fault where
  | json (e : Json.Error)
  | toml (text : String) (fault : Toml.Fault)
  | foreign (cause : String)
  | number (fault : Toml.NumberFault)
  | rootNotTable (root : Tree)
  | notText (phrase key : String) (sourced : Bool)
  | notGroup (tree : Tree) (key : String)
  | unknownChoice (choice name key : String)
  | notChoice (choice key : String)

-- The fault in a file of this path.
def Fault.message (file : String) : Fault → String
  | .json e => e.message ++ " in " ++ file
  | .toml text fault => fault.message text ++ " in " ++ file
  | .foreign cause => cause ++ " in " ++ file
  | .number fault => fault.message ++ " in " ++ file
  | .rootNotTable root =>
    "invalid type: " ++ root.rootPhrase ++ ", expected a map in " ++ file ++ " in " ++ file
  | .notText phrase key sourced =>
    "invalid type: " ++ phrase ++ ", expected a string for key `" ++ key ++ "`" ++
      if sourced then " in " ++ file else ""
  | .notGroup tree key =>
    "invalid type: " ++ tree.groupPhrase ++ ", expected struct PreambleConfig for key `" ++ key ++ "`"
  | .unknownChoice choice name key =>
    "enum " ++ choice ++ " does not have variant constructor " ++ name ++ " for key `" ++ key ++ "`"
  | .notChoice choice key =>
    "value of enum " ++ choice ++ " should be represented by either string or table with exactly " ++
      "one key for key `" ++ key ++ "`"

def readText (key : String) (tree : Tree) : Except Fault String :=
  match tree.text? with
  | .ok s => .ok s
  | .error (phrase, sourced) => .error (.notText phrase key sourced)

-- A choice by name, or by a table with the name as its one key, whatever stands behind it.
def readChoice {α : Type} (choice : Choice α) (key : String) (tree : Tree) : Except Fault α :=
  let named (name : String) : Except Fault α :=
    match choice.ofName? name with
    | some a => .ok a
    | none => .error (.unknownChoice choice.name name key)
  match tree with
  | .text name => named name
  | .table _ [(name, _)] => named name
  | _ => .error (.notChoice choice.name key)

-- What is read from a value, or the default where there is none.
def readOr {α : Type} (default : α) (read : Tree → Except Fault α) (tree : Option Tree) :
    Except Fault α :=
  match tree with
  | none => .ok default
  | some tree => read tree

-- The settings of the head, from a value each and the keys that messages name them by.
def readPreambleParts (title uid titleSource : Option Tree) (titleKey uidKey titleSourceKey : String) :
    Except Fault PreambleSettings := do
  let defaults : PreambleSettings := {}
  let title ← readOr defaults.title (readText titleKey) title
  let uid ← readOr defaults.uid (readText uidKey) uid
  let titleSource ← readOr defaults.titleSource (readChoice Choice.titleSource titleSourceKey)
    titleSource
  return { title, uid, titleSource }

-- They are the entries of a table, or by position the items of a list.
def readPreamble (tree : Tree) : Except Fault PreambleSettings :=
  match tree with
  | .table _ entries =>
    readPreambleParts (entries.lookup "title") (entries.lookup "uid") (entries.lookup "title_source")
      "preamble.title" "preamble.uid" "preamble.title_source"
  | .list _ items =>
    readPreambleParts items[0]? items[1]? items[2]? "preamble[0]" "preamble[1]" "preamble[2]"
  | tree => .error (.notGroup tree "preamble")

-- Every setting that the tree does not give has its default.
def ofTree (tree : Tree) : Except Fault Settings := do
  let defaults : Settings := {}
  let inputPath ← readOr defaults.inputPath (readText "input_path") (tree.entry? "input_path")
  let literalStyle ← readOr defaults.literalStyle (readChoice Choice.literalStyle "literal_style")
    (tree.entry? "literal_style")
  let unsupportedPolicy ← readOr defaults.unsupportedPolicy
    (readChoice Choice.unsupportedPolicy "unsupported_panel_policy")
    (tree.entry? "unsupported_panel_policy")
  let preamble ← readOr defaults.preamble readPreamble (tree.entry? "preamble")
  return { inputPath, literalStyle, unsupportedPolicy, preamble }

-- The formats of configuration files that are read here.
inductive Format where
  | toml
  | json
  deriving DecidableEq

def Format.entries (format : Format) (text : String) : Except Fault (List (String × Tree)) :=
  match format with
  | .toml =>
    match Toml.parse text with
    | .error fault => .error (.toml text fault)
    | .ok entries => (Tree.ofTomlEntries entries).mapError Fault.number
  | .json =>
    match Json.Decoder.any.decode text with
    | .error e => .error (.json e)
    | .ok value =>
      match Tree.ofJson value with
      | .table _ entries => .ok entries
      | root => .error (.rootNotTable root)

-- The formats that others read.
inductive ForeignFormat where
  | yaml
  | ini
  | ron
  | json5
  deriving DecidableEq

-- What others make of a text in a format of theirs, given the path of its file for their messages:
-- the entries of the text, or why it has none.
abbrev Readers := ForeignFormat → (file text : String) → Except String (List (String × Tree))

-- Where nobody is there to read such a text, it is refused and not passed over.
def Readers.absent : Readers := fun _ _ _ => .error "no reader for this format"

inductive FileFormat where
  | own (format : Format)
  | foreign (format : ForeignFormat)
  deriving DecidableEq

def FileFormat.entries (readers : Readers) (file : String) (format : FileFormat) (text : String) :
    Except Fault (List (String × Tree)) :=
  match format with
  | .own format => format.entries text
  | .foreign format => (readers format file text).mapError Fault.foreign

section Reading

variable (entries : String → Except Fault (List (String × Tree)))

def ofText (text : String) : Except Fault Settings := do
  let entries ← entries text
  ofTree (Tree.ofEntries entries)

-- A byte-order mark at the start is no part of a text.
def dropMark (bytes : ByteArray) : ByteArray :=
  if (bytes.extract 0 3).toList = [0xef, 0xbb, 0xbf] then bytes.extract 3 bytes.size else bytes

def ofBytes (bytes : ByteArray) : Except Fault Settings :=
  ofText entries (Text.ofBytes (dropMark bytes))

end Reading

end DashboardScript.Settings
