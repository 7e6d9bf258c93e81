import FormatGraph.Severity

/-! Findings about many files. -/

namespace FormatGraph

structure Diagnostic where
  file : String
  message : String
  severity : Severity
  deriving DecidableEq, Repr

namespace Diagnostic

def report (d : Diagnostic) : String :=
  "[" ++ d.severity.name ++ "] " ++ d.file ++ ": " ++ d.message

def toJson (d : Diagnostic) : Json :=
  .obj [("file", .str d.file), ("message", .str d.message), ("level", Spelled.toJson d.severity)]

end Diagnostic

structure Diagnostics where
  entries : List Diagnostic := []
  deriving DecidableEq, Repr

namespace Diagnostics

def add (ds : Diagnostics) (file message : String) (severity : Severity) : Diagnostics :=
  ⟨ds.entries ++ [⟨file, message, severity⟩]⟩

def merge (ds others : Diagnostics) : Diagnostics := ⟨ds.entries ++ others.entries⟩

def errorCount (ds : Diagnostics) : Nat := ds.entries.countP (·.severity = .error)

def warningCount (ds : Diagnostics) : Nat := ds.entries.countP (·.severity = .warning)

def hasErrors (ds : Diagnostics) : Bool := ds.entries.any (·.severity = .error)

def report (ds : Diagnostics) : String := String.join (ds.entries.map (·.report ++ "\n"))

def toJson (ds : Diagnostics) : Json :=
  .obj [("diagnostics", .arr (ds.entries.map Diagnostic.toJson))]

end Diagnostics

end FormatGraph
