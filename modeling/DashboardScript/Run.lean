import DashboardScript.Conversion
import DashboardScript.Dashboard.Format
import DashboardScript.Files
import DashboardScript.Settings.Load

namespace DashboardScript

-- Why the file of a dashboard gives no script.
inductive ConvertError where
  | unreadable (path : String) (e : ReadError)
  | malformed (path : String) (e : Json.Error)
  | unsupported (e : UnsupportedPanel)

namespace ConvertError

def message : ConvertError → String
  | .unreadable path _ => "cannot read dashboard file " ++ path
  | .malformed path _ => "malformed dashboard file " ++ path
  | .unsupported e => e.message

-- What lies behind the error, if anything does.
def cause? : ConvertError → Option String
  | .unreadable _ e => some e.message
  | .malformed _ e => some e.message
  | .unsupported _ => none

end ConvertError

-- Loads the dashboard from a file. That the file was read is an event, also where it is malformed.
def Dashboard.load {m : Type → Type} [Monad m] (files : Files m) (path : String) :
    m (Traced ConvertError Dashboard) := do
  match ← files.readText path with
  | .error e => return .error (.unreadable path e)
  | .ok text =>
    let dashboard := (Dashboard.ofJson text).mapError (ConvertError.malformed path)
    return ⟨[.read text.utf8ByteSize path], dashboard⟩

-- Loads the dashboard that the settings name and converts it.
def convertSource {m : Type → Type} [Monad m] (files : Files m) (settings : Settings) :
    m (Traced ConvertError Conversion) := do
  let loaded ← Dashboard.load files settings.inputPath
  match loaded.result with
  | .error e => return ⟨loaded.events, .error e⟩
  | .ok dashboard =>
    let converted := (convert settings dashboard).mapError ConvertError.unsupported
    return { converted with events := loaded.events ++ converted.events }

namespace Settings

def plainFile : String := "config/converter"

-- The path of the configuration file of a format.
def Format.file : Format → String
  | .toml => "config/converter.toml"
  | .json => "config/converter.json"

-- The configuration files that have a format, in the order in which they are looked for.
def formattedFiles : List (String × FileFormat) :=
  [(Format.toml.file, .own .toml),
    (Format.json.file, .own .json),
    ("config/converter.yaml", .foreign .yaml),
    ("config/converter.yml", .foreign .yaml),
    ("config/converter.ini", .foreign .ini),
    ("config/converter.ron", .foreign .ron),
    ("config/converter.json5", .foreign .json5)]

-- Loads the first configuration file there is. One without an extension has no format, so it gives no
-- settings and hides the others, and so does one that is there but cannot be read.
def load {m : Type → Type} [Monad m] (files : Files m) (readers : Readers := Readers.absent) :
    m (Except String Settings) := do
  if ← files.isFile plainFile then return .ok {}
  match ← formattedFiles.findM? fun (file, _) => files.isFile file with
  | none => return .ok {}
  | some (file, format) =>
    match ← files.read file with
    | .error _ => return .ok {}
    | .ok bytes =>
      return (ofBytes (format.entries readers file) bytes).mapError (Fault.message file)

end Settings

-- What a run of the program leaves behind.
structure Report where
  exitCode : Nat
  output : String
  events : List Event
  -- the report of a failure
  failure : Option String
  deriving DecidableEq

namespace Report

def failureText (message : String) (cause : Option String) : String :=
  "Error: " ++ message ++
    (match cause with
      | none => ""
      | some cause =>
        "\n\nCaused by:\n" ++ "\n".intercalate ((cause.splitOn "\n").map ("    " ++ ·))) ++
    "\n"

-- A failed run leaves no output.
def failed (events : List Event) (message : String) (cause : Option String) : Report :=
  ⟨1, "", events, some (failureText message cause)⟩

def ofConversion (settings : Settings) (traced : Traced ConvertError Conversion) : Report :=
  match traced.result with
  | .error e => failed traced.events e.message e.cause?
  | .ok conversion =>
    let event :=
      Event.converted conversion.panels settings.inputPath conversion.diagnostics.length
    ⟨0, conversion.script, traced.events ++ [event], none⟩

end Report

-- A whole run: loads the settings, converts the dashboard that they name, and tells of it.
def run {m : Type → Type} [Monad m] (files : Files m)
    (readers : Settings.Readers := Settings.Readers.absent) : m Report := do
  match ← Settings.load files readers with
  | .error cause => return .failed [] "Failed to load converter configuration" (some cause)
  | .ok settings => return .ofConversion settings (← convertSource files settings)

end DashboardScript
