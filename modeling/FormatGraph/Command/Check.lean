import FormatGraph.Command.Walkable
import FormatGraph.Diagnostics
import FormatGraph.Parallel
import FormatGraph.Report.Basic

/-! Checking many payloads. -/

namespace FormatGraph.Check

structure Checked where
  file : String
  result : Except Failure Graph

def Checked.findings (checked : Checked) : Diagnostics :=
  match checked.result with
  | .ok _ => {}
  | .error failure => Diagnostics.add {} checked.file failure.summary .error

def findings (all : List Checked) : Diagnostics := (all.map Checked.findings).foldl .merge {}

def onOneLine (text : String) : String :=
  String.ofList (text.toList.map fun c => if c = '\n' then ' ' else c)

def table (found : Diagnostics) : Table where
  headers := ["file", "level", "message"]
  rows := found.entries.map fun d => [d.file, d.severity.name, onOneLine d.message]

def report (style : Report) (found : Diagnostics) : String :=
  match style.format with
  | .json => style.object found.toJson
  | .table => style.table (table found)
  | .text => if found.entries.isEmpty then "" else Report.line found.report

def summary (total failed : Nat) (elapsed : String) : String :=
  toString (total - failed) ++ " of " ++ toString total ++ " payload(s) ok in " ++ elapsed

def outcome (style : Report) (shouldPrint : Bool) (elapsed : String) (all : List Checked) :
    Outcome :=
  let found := findings all
  let failed := found.errorCount
  let summary := summary all.length failed elapsed
  { code := if failed = 0 then 0 else 1
    stdout := report style found ++
      if shouldPrint && failed = 0 then Outcome.success style.color summary else ""
    stderr := if shouldPrint && failed ≠ 0 then Outcome.error style.color summary else "" }

variable {m : Type → Type} [Monad m] [Files m] [Parallel m]

def payloadsAt (path : String) : m (Except Failure (List String)) := do
  match ← Files.kind? path with
  | none => return .error ⟨"Input does not exist: " ++ path, []⟩
  | some .file => return .ok [path]
  | some .directory => return .ok ((← Files.below path).filter Files.isPayload)

def payloads : List String → m (Except Failure (List String))
  | [] => return .ok []
  | path :: paths => do
    match ← payloadsAt path with
    | .error failure => return .error failure
    | .ok files => return (← payloads paths).map (files ++ ·)

def checkFile (strict : Bool) (file : String) : m Checked := do
  return ⟨file, ← Graph.walkableOfFile strict file⟩

def checkFiles (parallel strict : Bool) (files : List String) : m (List Checked) :=
  if parallel then Parallel.map (checkFile strict) files else files.mapM (checkFile strict)

def run (style : Report) (shouldPrint : Bool) (elapsed : m String) (parallel strict : Bool)
    (paths : List String) : m (Except Failure Outcome) := do
  match ← payloads paths with
  | .error failure => return .error failure
  | .ok files => do
    let all ← checkFiles parallel strict (Path.sort files)
    return .ok (outcome style shouldPrint (← elapsed) all)

end FormatGraph.Check
