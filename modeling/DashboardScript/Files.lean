namespace DashboardScript

-- Why a file cannot be read.
inductive ReadError where
  | notFound
  | denied
  | notDirectory
  | isDirectory
  | nameTooLong
  | nulInPath
  | notText
  -- any other reason, as the system words it
  | other (message : String)
  deriving DecidableEq

def ReadError.message : ReadError → String
  | .notFound => "No such file or directory (os error 2)"
  | .denied => "Permission denied (os error 13)"
  | .notDirectory => "Not a directory (os error 20)"
  | .isDirectory => "Is a directory (os error 21)"
  | .nameTooLong => "File name too long (os error 36)"
  | .nulInPath => "file name contained an unexpected NUL byte"
  | .notText => "stream did not contain valid UTF-8"
  | .other message => message

-- What a run may ask of a file system.
structure Files (m : Type → Type) where
  isFile : String → m Bool
  read : String → m (Except ReadError ByteArray)

-- A whole file as text, which it has to be.
def Files.readText {m : Type → Type} [Monad m] (files : Files m) (path : String) :
    m (Except ReadError String) := do
  match ← files.read path with
  | .error e => return .error e
  | .ok bytes =>
    match String.fromUTF8? bytes with
    | some text => return .ok text
    | none => return .error .notText

end DashboardScript
