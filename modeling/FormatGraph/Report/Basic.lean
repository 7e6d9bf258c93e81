import FormatGraph.Json.Writer
import FormatGraph.Report.Format
import FormatGraph.Report.Statistics
import FormatGraph.Text.Paint

/-! Reports. Each part of a report is written as a text that ends its line. -/

namespace FormatGraph

structure Report where
  format : ReportFormat := .text
  /-- JSON is written on several lines; in other formats it always is. -/
  pretty : Bool := false
  color : Bool := false
  deriving DecidableEq, Repr

namespace Report

def line (text : String) : String := text ++ "\n"

def lines (texts : List String) : String := String.join (texts.map line)

def object (report : Report) (value : Json) : String :=
  line (if report.pretty || report.format ≠ .json then value.pretty else value.compress)

def header (report : Report) (title : String) : String :=
  match report.format with
  | .text =>
    let underline := String.ofList (List.replicate title.utf8ByteSize '=')
    lines ["\n" ++ Text.paint report.color .boldBlue title, Text.paint report.color .blue underline]
  | .json | .table => line title

def table (report : Report) (table : Table) : String :=
  match report.format with
  | .json => report.object table.toJson
  | .text | .table => lines table.lines

def statistics (report : Report) (s : Statistics) : String :=
  match report.format with
  | .json => report.object s.toJson
  | .table => report.table s.toTable
  | .text => report.header "Statistics" ++ lines s.lines

end Report

end FormatGraph
