import FormatGraph.Spelled

/-! Formats of reports. -/

namespace FormatGraph

inductive ReportFormat where
  | text | json | table
  deriving DecidableEq, Repr, Inhabited

namespace ReportFormat

instance : Spelled ReportFormat where
  all := [.text, .json, .table]
  spell
    | .text => "text"
    | .json => "json"
    | .table => "table"

def ofName? (name : String) : Option ReportFormat :=
  match name.toLower with
  | "text" | "txt" => some .text
  | "json" => some .json
  | "table" => some .table
  | _ => none

end ReportFormat

end FormatGraph
