import DashboardScript.Files

namespace DashboardScript

-- What a name in a directory leads to. A file that cannot be read is a file all the same, and nothing
-- is known of a directory that may not be entered. Links are taken for what they lead to.
inductive Entry where
  | file (content : ByteArray)
  | unreadable (reason : ReadError)
  | directory (entries : List (String × Entry))
  | closed (reason : ReadError)

-- The entries of the directory that a run works in.
abbrev WorkDir := List (String × Entry)

namespace WorkDir

-- Puts an entry at a path of names. The directories on the way are made where they are missing, and
-- a file among them gives way.
def insert (entry : Entry) : (names : List String) → WorkDir → WorkDir
  | [], dir => dir
  | [name], dir => (name, entry) :: dir.filter (·.1 != name)
  | name :: names, dir =>
    let inner := match dir.lookup name with
      | some (.directory entries) => entries
      | _ => []
    (name, .directory (insert entry names inner)) :: dir.filter (·.1 != name)

def pieces (path : String) : List String := (path.toList.splitOn '/').map String.ofList

def ofList (entries : List (String × Entry)) : WorkDir :=
  entries.foldl
    (fun dir (path, entry) => dir.insert entry ((pieces path).filter (· ∉ ["", "."]))) []

-- Where a path leads to: an entry with the directories above it, or a place that is not in the work
-- directory.
inductive Place where
  | inside (entry : Entry) (parents : List WorkDir)
  | outside

-- One step on a path. A file leads nowhere, not even to itself, and a path that has left the work
-- directory is not followed.
def step (place : Place) (name : String) : Except ReadError Place :=
  match place with
  | .outside => .ok .outside
  | .inside (.file _) _ | .inside (.unreadable _) _ => .error .notDirectory
  | .inside (.closed reason) _ => .error reason
  | .inside (.directory entries) parents =>
    if name = "" ∨ name = "." then .ok place
    else if name = ".." then
      match parents with
      | [] => .ok .outside
      | parent :: rest => .ok (.inside (.directory parent) rest)
    else if 255 < name.utf8ByteSize then .error .nameTooLong
    else
      match entries.lookup name with
      | none => .error .notFound
      | some entry => .ok (.inside entry (entries :: parents))

-- Follows a path from the work directory. Names and paths have a greatest length in bytes.
def resolve (dir : WorkDir) (path : String) : Except ReadError Place :=
  if '\x00' ∈ path.toList then .error .nulInPath
  else if path = "" then .error .notFound
  else if 4096 ≤ path.utf8ByteSize then .error .nameTooLong
  else if path.toList.head? = some '/' then .ok .outside
  else (pieces path).foldlM step (.inside (.directory dir) [])

-- Directories that hold nothing else.
def barren : Files Id where
  isFile _ := false
  read path :=
    match (pieces path).find? (· ∉ ["", ".", ".."]) with
    | none => .error .isDirectory
    | some name => .error (if 255 < name.utf8ByteSize then .nameTooLong else .notFound)

section Files

variable (dir : WorkDir) (beyond : Files Id)

def read (path : String) : Except ReadError ByteArray := do
  match ← dir.resolve path with
  | .inside (.file content) _ => .ok content
  | .inside (.unreadable reason) _ | .inside (.closed reason) _ => .error reason
  | .inside (.directory _) _ => .error .isDirectory
  | .outside => beyond.read path

def isFile (path : String) : Bool :=
  match dir.resolve path with
  | .ok (.inside (.file _) _) | .ok (.inside (.unreadable _) _) => true
  | .ok (.inside (.directory _) _) | .ok (.inside (.closed _) _) => false
  | .ok .outside => beyond.isFile path
  | .error _ => false

end Files

-- The files of a work directory, and what there is beyond it.
def files (dir : WorkDir) (beyond : Files Id := barren) : Files Id where
  isFile := dir.isFile beyond
  read := dir.read beyond

end WorkDir

end DashboardScript
