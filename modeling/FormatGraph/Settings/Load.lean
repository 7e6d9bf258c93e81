import FormatGraph.Files.Basic
import FormatGraph.Settings.Basic
import FormatGraph.Settings.Toml
import FormatGraph.Settings.Yaml

/-! Settings in files. What a path ends with decides how its file is written. -/

namespace FormatGraph.Settings

inductive FileFormat where
  | toml | yaml
  deriving DecidableEq, Repr

def FileFormat.name : FileFormat → String
  | .toml => "TOML"
  | .yaml => "YAML"

def FileFormat.ofPath? (path : String) : Option FileFormat :=
  match (Path.extension? path).map String.toLower with
  | some "toml" => some .toml
  | some "yaml" | some "yml" => some .yaml
  | _ => none

inductive FileFailure where
  | unsupported (path : String)
  | unreadable (path : String) (cause : FileError)
  | malformed (format : FileFormat) (path : String)
  | unwritable (path : String) (cause : FileError)
  deriving DecidableEq, Repr

namespace FileFailure

def message : FileFailure → String
  | .unsupported path => "Unsupported config format: " ++ path ++ " (expected .toml, .yaml or .yml)"
  | .unreadable path _ => "Failed to read config from " ++ path
  | .malformed format path => "Failed to parse " ++ format.name ++ " config from " ++ path
  | .unwritable path _ => "Failed to write config to " ++ path

def causes : FileFailure → List String
  | .unreadable _ cause | .unwritable _ cause => [cause.message]
  | .unsupported _ | .malformed _ _ => []

end FileFailure

/-- In a file of tables a word is a string, or a table with the word as its only key and nothing
under it. -/
def wordOfToml : Json → Except Mismatch ReportFormat
  | .obj [(key, .obj [])] | .obj [(key, .arr [])] => Spelled.ofWord key
  | .obj _ => .error (.invalidValue .object "map with a single key")
  | value => Spelled.ofJson value

def wordOfYaml : Json → Except Mismatch ReportFormat
  | .str word => Spelled.ofWord word
  | value => .error (.invalidType value.found "a word")

def ofToml? (text : String) : Option Settings := do
  (Conventions.read ⟨true, true, false, wordOfToml⟩ (← Toml.parse text)).toOption

def ofYaml? (text : String) : Option Settings := do
  (Conventions.read ⟨false, false, true, wordOfYaml⟩ (← Yaml.parse text)).toOption

def ofText? (text : String) : FileFormat → Option Settings
  | .toml => ofToml? text
  | .yaml => ofYaml? text

def toText (s : Settings) : FileFormat → String
  | .toml => s.toToml
  | .yaml => s.toYaml

variable {m : Type → Type} [Monad m] [Files m]

def load (path : String) : m (Except FileFailure Settings) := do
  match FileFormat.ofPath? path with
  | none => return .error (.unsupported path)
  | some format =>
    match ← Files.readText path with
    | .error cause => return .error (.unreadable path cause)
    | .ok text =>
      match ofText? text format with
      | some settings => return .ok settings
      | none => return .error (.malformed format path)

def loadOrDefault (path : String) : m (Except FileFailure Settings) := do
  if (← Files.kind? path).isSome then load path else return .ok {}

def save (s : Settings) (path : String) : m (Except FileFailure Unit) := do
  match FileFormat.ofPath? path with
  | none => return .error (.unsupported path)
  | some format => return (← Files.write path (s.toText format)).mapError (.unwritable path)

end FormatGraph.Settings
