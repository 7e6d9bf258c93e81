import FormatGraph.Json.Basic

/-! Tables in plain text. Columns are divided by lines and padded with blanks. -/

namespace FormatGraph

structure Table where
  headers : List String
  rows : List (List String)
  deriving DecidableEq, Repr

namespace Table

/-- The width of a column: the bytes of its header, or the characters of its longest cell if they
are more. -/
def width (table : Table) (index : Nat) (header : String) : Nat :=
  table.rows.foldl (fun width row => max width ((row[index]?).elim 0 String.length))
    header.utf8ByteSize

def widths (table : Table) : List Nat :=
  table.headers.zipIdx.map fun (header, index) => table.width index header

def pad (width : Nat) (cell : String) : String :=
  cell ++ String.ofList (List.replicate (width - cell.length) ' ')

/-- Cells beyond the last column are not filled up. -/
def rowLine (widths : List Nat) (cells : List String) : String :=
  " │ ".intercalate (cells.zipIdx.map fun (cell, index) => (widths[index]?).elim cell (pad · cell))

def ruleLine (widths : List Nat) : String :=
  "─┼─".intercalate (widths.map fun width => String.ofList (List.replicate width '─'))

def lines (table : Table) : List String :=
  rowLine table.widths table.headers :: ruleLine table.widths ::
    table.rows.map (rowLine table.widths)

/-- The rows as objects; of columns with the same header the last counts. -/
def toJson (table : Table) : Json :=
  .arr (table.rows.map fun row => .obj ((table.headers.zip row).foldl
    (fun members (header, cell) => Json.insert header (.str cell) members) []))

end Table

end FormatGraph
