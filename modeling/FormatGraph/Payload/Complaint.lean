import FormatGraph.Location
import FormatGraph.Severity

/-! What the front end complains of, instead of a result or beside it. -/

namespace FormatGraph

structure Complaint where
  text : String
  file : String
  loc : Loc
  source : String
  isWarning : Bool
  deriving DecidableEq, Repr

namespace Complaint

instance : Shaped Complaint where
  shape :=
    .record "SrcErrorEntry" (.cons "msg" .text (.cons "file" .text (.cons "loc" (Shaped.shape Loc)
      (.cons "src" .text (.cons "warn" .flag .nil)))))
  ofCarrier := fun (text, file, loc, source, isWarning, ()) =>
    ⟨text, file, Shaped.ofCarrier loc, source, isWarning⟩
  toCarrier c := (c.text, c.file, Shaped.toCarrier c.loc, c.source, c.isWarning, ())

def severity (c : Complaint) : Severity := .ofWarning c.isWarning

def message (c : Complaint) : String :=
  c.severity.name ++ ": " ++ c.text ++ "\n" ++ c.file ++ ":" ++ c.loc.text ++ ":\n" ++ c.source

end Complaint

structure Complaints where
  entries : List Complaint
  deriving DecidableEq, Repr

namespace Complaints

instance : Shaped Complaints where
  shape := .record "SrcError" (.cons "errs" (.list (Shaped.shape Complaint)) .nil)
  ofCarrier := fun (entries, ()) => ⟨entries.map Shaped.ofCarrier⟩
  toCarrier cs := (cs.entries.map Shaped.toCarrier, ())

def errorCount (cs : Complaints) : Nat := cs.entries.countP (!·.isWarning)

def warningCount (cs : Complaints) : Nat := cs.entries.countP (·.isWarning)

def message (cs : Complaints) : String := "\n".intercalate (cs.entries.map Complaint.message)

end Complaints

end FormatGraph
