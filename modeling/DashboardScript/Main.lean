import DashboardScript.Outcome

open DashboardScript

-- The code that the system gives for a failure, which some calls negate.
def systemCode (code : UInt32) : UInt32 := if 0x80000000 ≤ code then 0 - code else code

-- The reason of a failed read, told by the code of the system.
def readErrorOf (e : IO.Error) : ReadError :=
  match e with
  | .noFileOrDirectory _ code _ | .permissionDenied _ code _ | .inappropriateType _ code _
  | .invalidArgument _ code _ =>
    match systemCode code with
    | 2 => .notFound
    | 13 => .denied
    | 20 => .notDirectory
    | 21 => .isDirectory
    | 36 => .nameTooLong
    | _ => .other (toString e)
  | e => .other (toString e)

def readHostFile (path : String) : IO (Except ReadError ByteArray) := do
  if path.contains '\x00' then return .error .nulInPath
  try
    return .ok (← IO.FS.readBinFile path)
  catch e => return .error (readErrorOf e)

-- Whether there is a file, be it one that cannot be read.
def isHostFile (path : String) : IO Bool := do
  if path.contains '\x00' then return false
  try
    let metadata ← (← IO.FS.realPath path).metadata
    return metadata.type == .file
  catch _ => return false

def hostFiles : Files IO where
  isFile := isHostFile
  read := readHostFile

def main : IO UInt32 := do
  let asked ← IO.getEnv "RUST_LOG"
  let threshold := (asked.bind Log.Threshold.ofName?).getD Log.Threshold.default
  let outcome := (← run hostFiles Settings.Readers.absent).outcome threshold
  for line in outcome.log do
    IO.eprintln (line.level.name ++ " " ++ line.message)
  (← IO.getStdout).write outcome.output
  match outcome.failure with
  | some text => IO.eprint text
  | none => pure ()
  return UInt32.ofNat outcome.exitCode
