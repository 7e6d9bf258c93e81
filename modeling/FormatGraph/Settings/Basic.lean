import FormatGraph.Report.Format

/-! Settings of the command line tool. -/

namespace FormatGraph

structure Settings where
  strictFields : Bool := false
  format : ReportFormat := .text
  pretty : Bool := true
  parallel : Bool := true
  deriving DecidableEq, Repr, Inhabited

namespace Settings

def toJson (s : Settings) : Json :=
  .obj [("decode", .obj [("strict_fields", .bool s.strictFields)]),
    ("output", .obj [("format", Spelled.toJson s.format), ("pretty", .bool s.pretty)]),
    ("check", .obj [("parallel", .bool s.parallel)])]

def flag (b : Bool) : String := if b then "true" else "false"

def toToml (s : Settings) : String :=
  "[decode]\nstrict_fields = " ++ flag s.strictFields ++ "\n\n[output]\nformat = \"" ++
    Spelled.spell s.format ++ "\"\npretty = " ++ flag s.pretty ++ "\n\n[check]\nparallel = " ++
    flag s.parallel ++ "\n"

def toYaml (s : Settings) : String :=
  "decode:\n  strict_fields: " ++ flag s.strictFields ++ "\noutput:\n  format: " ++
    Spelled.spell s.format ++ "\n  pretty: " ++ flag s.pretty ++ "\ncheck:\n  parallel: " ++
    flag s.parallel ++ "\n"

/-- What a kind of document lets stand for what. -/
structure Conventions where
  /-- A list may stand for a section, with its values in order. -/
  listForSection : Bool
  /-- Such a list may be longer than the section. -/
  longList : Bool
  /-- Nothing may stand for an empty section. -/
  nothingForSection : Bool
  word : Json → Except Mismatch ReportFormat

abbrev Setter := Json → Settings → Except Mismatch Settings

namespace Conventions

variable (conventions : Conventions)

/-- A section from its keys, of which none may come twice. Other keys are ignored. -/
def readSection (name : String) (keys : List (String × Setter)) : Setter
  | .obj members, s => do
    let known := members.filter fun (key, _) => (keys.lookup key).isSome
    if let some (key, _) := known.find? fun (key, _) => 1 < known.countP (·.1 = key) then
      throw (.duplicateField key)
    known.foldlM (fun s (key, value) => (keys.lookup key).elim (pure s) fun set => set value s) s
  | .arr values, s => do
    if !conventions.listForSection then throw (.invalidType .list ("struct " ++ name))
    let s ← (keys.zip values).foldlM (fun s ((_, set), value) => set value s) s
    if !conventions.longList && keys.length < values.length then
      throw (.invalidLength values.length "fewer elements in array")
    return s
  | .null, s =>
    if conventions.nothingForSection then .ok s else .error (.invalidType .null ("struct " ++ name))
  | value, _ => .error (.invalidType value.found ("struct " ++ name))

def readFlag (set : Bool → Settings → Settings) : Setter
  | .bool b, s => .ok (set b s)
  | value, _ => .error (.invalidType value.found "a boolean")

def sections : List (String × Setter) := [
  ("decode", conventions.readSection "DecodeOptions" [
    ("strict_fields", readFlag fun b s => { s with strictFields := b })]),
  ("output", conventions.readSection "OutputConfig" [
    ("format", fun value s => do return { s with format := ← conventions.word value }),
    ("pretty", readFlag fun b s => { s with pretty := b })]),
  ("check", conventions.readSection "CheckConfig" [
    ("parallel", readFlag fun b s => { s with parallel := b })])]

def read (document : Json) : Except Mismatch Settings :=
  conventions.readSection "ToolConfig" conventions.sections document {}

end Conventions

def ofJson (value : Json) : Except Mismatch Settings :=
  Conventions.read ⟨true, false, false, Spelled.ofJson⟩ value

end Settings

end FormatGraph
