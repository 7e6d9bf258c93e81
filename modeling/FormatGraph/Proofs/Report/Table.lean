import FormatGraph.Proofs.Text.Places
import FormatGraph.Report.Basic
import Mathlib.Algebra.GroupWithZero.Nat
import Mathlib.Data.List.Basic
import Mathlib.Order.Bounds.Defs

/-! Tables line up. A column is wide enough for all that stands in it, and every cell is filled up to
that width, so a cell starts at the same column in every line, whatever stands to the left of it. -/

namespace FormatGraph

section intercalate
variable {divider part : List Char} {parts : List (List Char)} {index : Nat}

theorem intercalate_cons_of_ne_nil (part : List Char) (h : parts ≠ []) :
    divider.intercalate (part :: parts) = part ++ divider ++ divider.intercalate parts := by
  obtain ⟨next, rest, rfl⟩ := List.exists_cons_of_ne_nil h
  rw [List.intercalate_cons_cons]

theorem exists_intercalate_eq (divider : List Char) (h : parts[index]? = some part) :
    ∃ before after, divider.intercalate parts = before ++ part ++ after ∧
      before.length = ((parts.take index).map fun part => part.length + divider.length).sum ∧
      (after = [] ∨ divider <+: after) := by
  induction parts generalizing index with
  | nil => cases h
  | cons first parts ih =>
    cases index with
    | zero =>
      cases h
      by_cases hparts : parts = []
      · subst hparts
        exact ⟨[], [], by simp, rfl, .inl rfl⟩
      · refine ⟨[], divider ++ divider.intercalate parts, ?_, rfl, .inr (List.prefix_append _ _)⟩
        rw [intercalate_cons_of_ne_nil part hparts, List.append_assoc, List.nil_append]
    | succ index =>
      rw [List.getElem?_cons_succ] at h
      have hparts : parts ≠ [] := by
        rintro rfl
        cases h
      obtain ⟨before, after, heq, hlength, hafter⟩ := ih h
      refine ⟨first ++ divider ++ before, after, ?_, ?_, hafter⟩
      · rw [intercalate_cons_of_ne_nil first hparts, heq]
        simp only [List.append_assoc]
      · rw [List.take_succ_cons, List.map_cons, List.sum_cons, ← hlength]
        simp only [List.length_append]

theorem length_intercalate (divider : List Char) (parts : List (List Char)) :
    (divider.intercalate parts).length =
      (parts.map List.length).sum + divider.length * (parts.length - 1) := by
  induction parts with
  | nil => simp
  | cons part parts ih =>
    by_cases hparts : parts = []
    · subst hparts
      simp
    · obtain ⟨gaps, hgaps⟩ : ∃ gaps, parts.length = gaps + 1 :=
        Nat.exists_eq_add_one.2 (List.length_pos_iff.2 hparts)
      rw [intercalate_cons_of_ne_nil part hparts, List.length_append, List.length_append, ih,
        List.map_cons, List.sum_cons, List.length_cons, hgaps, Nat.add_sub_cancel,
        Nat.add_sub_cancel, Nat.mul_add_one]
      omega

theorem mem_intercalate {c : Char} (h : c ∈ divider.intercalate parts) :
    c ∈ divider ∨ ∃ part ∈ parts, c ∈ part := by
  induction parts with
  | nil => simp at h
  | cons part parts ih =>
    by_cases hparts : parts = []
    · subst hparts
      rw [List.intercalate_singleton] at h
      exact .inr ⟨part, List.mem_cons_self, h⟩
    · rw [intercalate_cons_of_ne_nil part hparts] at h
      rcases List.mem_append.1 h with h | h
      · rcases List.mem_append.1 h with h | h
        · exact .inr ⟨part, List.mem_cons_self, h⟩
        · exact .inl h
      · rcases ih h with h | ⟨later, hlater, h⟩
        · exact .inl h
        · exact .inr ⟨later, List.mem_cons_of_mem _ hlater, h⟩

end intercalate

namespace Table

variable {table : Table} {widths : List Nat} {cells : List String} {index width : Nat}
  {cell : String}

/-! ### Widths -/

def needs (table : Table) (index : Nat) (header : String) : Set Nat :=
  {n | n = header.utf8ByteSize ∨
    ∃ row ∈ table.rows, ∃ cell, row[index]? = some cell ∧ n = cell.length}

theorem isGreatest_foldl_width (index : Nat) (rows : List (List String)) (least : Nat) :
    IsGreatest {n | n = least ∨ ∃ row ∈ rows, ∃ cell, row[index]? = some cell ∧ n = cell.length}
      (rows.foldl (fun width row => max width ((row[index]?).elim 0 String.length)) least) := by
  induction rows generalizing least with
  | nil =>
    refine ⟨.inl rfl, ?_⟩
    rintro n (rfl | ⟨row, hrow, -⟩)
    · exact Nat.le_refl _
    · cases hrow
  | cons row rows ih =>
    obtain ⟨hmem, hupper⟩ := ih (max least ((row[index]?).elim 0 String.length))
    rw [List.foldl_cons]
    generalize rows.foldl _ (max least ((row[index]?).elim 0 String.length)) = width at hmem hupper
    have hleast : max least ((row[index]?).elim 0 String.length) ≤ width := hupper (.inl rfl)
    constructor
    · rcases hmem with hwidth | ⟨later, hlater, cell, hcell, hwidth⟩
      · cases hcell : row[index]? with
        | none =>
          rw [hcell, Option.elim_none, Nat.max_zero] at hwidth
          exact .inl hwidth
        | some cell =>
          rw [hcell, Option.elim_some] at hwidth
          rcases Nat.le_total least cell.length with hle | hle
          · rw [Nat.max_eq_right hle] at hwidth
            exact .inr ⟨row, List.mem_cons_self, cell, hcell, hwidth⟩
          · rw [Nat.max_eq_left hle] at hwidth
            exact .inl hwidth
      · exact .inr ⟨later, List.mem_cons_of_mem _ hlater, cell, hcell, hwidth⟩
    · rintro n (rfl | ⟨other, hother, cell, hcell, rfl⟩)
      · exact (Nat.le_max_left _ _).trans hleast
      · rcases List.mem_cons.1 hother with rfl | hother
        · rw [hcell, Option.elim_some] at hleast
          exact (Nat.le_max_right _ _).trans hleast
        · exact hupper (.inr ⟨other, hother, cell, hcell, rfl⟩)

theorem isGreatest_width (table : Table) (index : Nat) (header : String) :
    IsGreatest (table.needs index header) (table.width index header) :=
  isGreatest_foldl_width index table.rows header.utf8ByteSize

theorem getElem?_widths (table : Table) (index : Nat) :
    table.widths[index]? = (table.headers[index]?).map (table.width index) := by
  rw [widths, List.getElem?_map, List.getElem?_zipIdx]
  cases table.headers[index]? with
  | none => rfl
  | some header => simp

theorem length_widths (table : Table) : table.widths.length = table.headers.length := by
  rw [widths, List.length_map, List.length_zipIdx]

def Fits (widths : List Nat) (cells : List String) : Prop :=
  ∀ (index : Nat) (cell : String) (width : Nat), cells[index]? = some cell →
    widths[index]? = some width → cell.length ≤ width

theorem fits_row {row : List String} (hrow : row ∈ table.rows) : Fits table.widths row := by
  intro index cell width hcell hwidth
  rw [getElem?_widths] at hwidth
  obtain ⟨header, -, rfl⟩ := Option.map_eq_some_iff.1 hwidth
  exact (isGreatest_width table index header).2 (.inr ⟨row, hrow, cell, hcell, rfl⟩)

theorem length_le_utf8ByteSize (text : String) : text.length ≤ text.utf8ByteSize := by
  have hchars (cs : List Char) : cs.length ≤ Text.byteSize cs := by
    induction cs with
    | nil => exact Nat.le_refl 0
    | cons c cs ih =>
      have hpos : 0 < c.utf8Size := c.utf8Size_pos
      rw [List.length_cons, Text.byteSize]
      omega
  rw [← Text.byteSize_eq_utf8ByteSize, ← String.length_toList]
  exact hchars text.toList

theorem fits_headers (table : Table) : Fits table.widths table.headers := by
  intro index header width hheader hwidth
  rw [getElem?_widths, hheader, Option.map_some] at hwidth
  cases hwidth
  exact (length_le_utf8ByteSize header).trans ((isGreatest_width table index header).2 (.inl rfl))

/-! ### Lines -/

def divider : List Char := " │ ".toList

def part (widths : List Nat) (index : Nat) (cell : String) : List Char :=
  ((widths[index]?).elim cell (pad · cell)).toList

def parts (widths : List Nat) (cells : List String) : List (List Char) :=
  cells.zipIdx.map fun placed => part widths placed.2 placed.1

theorem toList_rowLine (widths : List Nat) (cells : List String) :
    (rowLine widths cells).toList = divider.intercalate (parts widths cells) := by
  rw [rowLine, String.toList_intercalate, List.map_map]
  rfl

theorem getElem?_parts (widths : List Nat) (cells : List String) (index : Nat) :
    (parts widths cells)[index]? = (cells[index]?).map (part widths index) := by
  rw [parts, List.getElem?_map, List.getElem?_zipIdx]
  cases cells[index]? with
  | none => rfl
  | some cell => simp

theorem length_parts (widths : List Nat) (cells : List String) :
    (parts widths cells).length = cells.length := by
  rw [parts, List.length_map, List.length_zipIdx]

theorem toList_pad (width : Nat) (cell : String) :
    (pad width cell).toList = cell.toList ++ List.replicate (width - cell.length) ' ' := by
  rw [pad, String.toList_append, String.toList_ofList]

theorem length_toList_pad (h : cell.length ≤ width) : (pad width cell).toList.length = width := by
  rw [toList_pad, List.length_append, List.length_replicate, String.length_toList]
  omega

theorem map_length_take_parts (hfits : Fits widths cells) (hcells : index ≤ cells.length)
    (hwidths : index ≤ widths.length) :
    ((parts widths cells).take index).map List.length = widths.take index := by
  refine List.ext_getElem? fun i => ?_
  rw [List.getElem?_map]
  by_cases hi : i < index
  · have hcell : cells[i]? = some cells[i] := List.getElem?_eq_getElem (by omega)
    have hwidth : widths[i]? = some widths[i] := List.getElem?_eq_getElem (by omega)
    have hpart : part widths i cells[i] = (pad widths[i] cells[i]).toList := by
      rw [part, hwidth, Option.elim_some]
    rw [List.getElem?_take_of_lt hi, List.getElem?_take_of_lt hi, getElem?_parts, hcell, hwidth,
      Option.map_some, Option.map_some, hpart, length_toList_pad (hfits i _ _ hcell hwidth)]
  · rw [List.getElem?_take_eq_none (Nat.le_of_not_lt hi),
      List.getElem?_take_eq_none (Nat.le_of_not_lt hi), Option.map_none]

/-- The column at which the cells with an index start: each column before has its width and a
divider of three characters. -/
def startOf (widths : List Nat) (index : Nat) : Nat := ((widths.take index).map (· + 3)).sum

/-- A cell stands in a line from a column on, filled up with blanks to its width. The line ends there,
or a divider follows. -/
def Stands (line : List Char) (column width : Nat) (cell : String) : Prop :=
  cell.length ≤ width ∧ ∃ before after,
    line = before ++ (cell.toList ++ List.replicate (width - cell.length) ' ') ++ after ∧
      before.length = column ∧ (after = [] ∨ divider <+: after)

theorem stands_rowLine (hfits : Fits widths cells) (hcell : cells[index]? = some cell)
    (hwidth : widths[index]? = some width) :
    Stands (rowLine widths cells).toList (startOf widths index) width cell := by
  have hpart : (parts widths cells)[index]? = some (pad width cell).toList := by
    rw [getElem?_parts, hcell, Option.map_some, part, hwidth, Option.elim_some]
  have hcells : index ≤ cells.length := (List.getElem?_eq_some_iff.1 hcell).1.le
  have hwidths : index ≤ widths.length := (List.getElem?_eq_some_iff.1 hwidth).1.le
  obtain ⟨before, after, hline, hlength, hafter⟩ := exists_intercalate_eq divider hpart
  refine ⟨hfits index cell width hcell hwidth, before, after, ?_, ?_, hafter⟩
  · rw [toList_rowLine, hline, toList_pad]
  · have hthree : (fun part : List Char => part.length + divider.length) =
        (fun width => width + 3) ∘ List.length := rfl
    rw [hlength, startOf, ← map_length_take_parts hfits hcells hwidths, hthree, List.map_map]

def lineLength (widths : List Nat) : Nat := widths.sum + 3 * (widths.length - 1)

theorem length_rowLine (hfits : Fits widths cells) (hcells : cells.length = widths.length) :
    (rowLine widths cells).toList.length = lineLength widths := by
  have hlengths : (parts widths cells).map List.length = widths := by
    have htake := map_length_take_parts hfits hcells.ge (Nat.le_refl widths.length)
    rwa [List.take_length, ← hcells, ← length_parts widths cells, List.take_length] at htake
  rw [toList_rowLine, length_intercalate, hlengths, length_parts, hcells]
  rfl

theorem length_ruleLine (widths : List Nat) :
    (ruleLine widths).toList.length = lineLength widths := by
  have hlengths : (widths.map fun width => (String.ofList (List.replicate width '─')).toList).map
      List.length = widths := by
    rw [List.map_map]
    simp [Function.comp_def]
  rw [ruleLine, String.toList_intercalate, List.map_map, length_intercalate]
  change ((widths.map fun width => (String.ofList (List.replicate width '─')).toList).map
    List.length).sum + 3 * (_ - 1) = _
  rw [hlengths, List.length_map, lineLength]

theorem lineFeed_not_mem_rowLine (h : ∀ cell ∈ cells, '\n' ∉ cell.toList) :
    '\n' ∉ (rowLine widths cells).toList := by
  intro hmem
  rw [toList_rowLine] at hmem
  rcases mem_intercalate hmem with hdivider | ⟨chars, hchars, hmem⟩
  · exact absurd hdivider (by decide)
  · obtain ⟨index, hindex⟩ := List.mem_iff_getElem?.1 hchars
    rw [getElem?_parts] at hindex
    obtain ⟨cell, hcell, rfl⟩ := Option.map_eq_some_iff.1 hindex
    have hcell' := h cell (List.mem_of_getElem? hcell)
    rw [part] at hmem
    cases hwidth : widths[index]? with
    | none =>
      rw [hwidth, Option.elim_none] at hmem
      exact hcell' hmem
    | some width =>
      rw [hwidth, Option.elim_some, toList_pad, List.mem_append] at hmem
      rcases hmem with hmem | hmem
      · exact hcell' hmem
      · exact absurd (List.eq_of_mem_replicate hmem) (by decide)

theorem lineFeed_not_mem_ruleLine (widths : List Nat) : '\n' ∉ (ruleLine widths).toList := by
  intro hmem
  rw [ruleLine, String.toList_intercalate] at hmem
  rcases mem_intercalate hmem with hdivider | ⟨chars, hchars, hmem⟩
  · exact absurd hdivider (by decide)
  · rw [List.map_map, List.mem_map] at hchars
    obtain ⟨width, -, rfl⟩ := hchars
    rw [Function.comp_apply, String.toList_ofList] at hmem
    exact absurd (List.eq_of_mem_replicate hmem) (by decide)

end Table

theorem Report.toList_lines (texts : List String) :
    (lines texts).toList = texts.flatMap fun text => text.toList ++ ['\n'] := by
  rw [lines, String.toList_join, List.flatMap_map]
  simp only [line, String.toList_append]
  rfl

theorem Report.splitOn_lines {texts : List String} (h : ∀ text ∈ texts, '\n' ∉ text.toList) :
    (lines texts).toList.splitOn '\n' = texts.map String.toList ++ [[]] := by
  induction texts with
  | nil => rfl
  | cons text texts ih =>
    obtain ⟨htext, htexts⟩ := List.forall_mem_cons.1 h
    rw [toList_lines, List.flatMap_cons, ← toList_lines, List.append_assoc, List.singleton_append,
      List.splitOn_append_cons_self_of_not_mem htext, ih htexts, List.map_cons, List.cons_append]

namespace Table

/-- The lines of a table: one for the headers, a rule, and one for each row, in columns. -/
structure Aligned (table : Table) (widths : List Nat) (header rule : List Char)
    (rows : List (List Char)) : Prop where
  widths_length : widths.length = table.headers.length
  width : ∀ index header width, table.headers[index]? = some header →
    widths[index]? = some width → IsGreatest (table.needs index header) width
  rows_length : rows.length = table.rows.length
  header_cell : ∀ index cell width, table.headers[index]? = some cell →
    widths[index]? = some width → Stands header (startOf widths index) width cell
  row_cell : ∀ (n : Nat) row line, table.rows[n]? = some row → rows[n]? = some line →
    ∀ index cell width, row[index]? = some cell → widths[index]? = some width →
      Stands line (startOf widths index) width cell
  header_length : header.length = lineLength widths
  rule_length : rule.length = lineLength widths
  row_length : ∀ (n : Nat) row line, table.rows[n]? = some row → rows[n]? = some line →
    row.length = table.headers.length → line.length = lineLength widths

theorem aligned_lines (table : Table) :
    table.Aligned table.widths (rowLine table.widths table.headers).toList
      (ruleLine table.widths).toList ((table.rows.map (rowLine table.widths)).map String.toList) where
  widths_length := table.length_widths
  width := by
    intro index header width hheader hwidth
    rw [getElem?_widths, hheader, Option.map_some] at hwidth
    cases hwidth
    exact table.isGreatest_width index header
  rows_length := by rw [List.length_map, List.length_map]
  header_cell := fun _ _ _ hcell hwidth => stands_rowLine table.fits_headers hcell hwidth
  row_cell := by
    intro n row line hrow hline index cell width hcell hwidth
    rw [List.getElem?_map, List.getElem?_map, hrow, Option.map_some, Option.map_some] at hline
    cases hline
    exact stands_rowLine (fits_row (List.mem_of_getElem? hrow)) hcell hwidth
  header_length := length_rowLine table.fits_headers table.length_widths.symm
  rule_length := length_ruleLine table.widths
  row_length := by
    intro n row line hrow hline hlength
    rw [List.getElem?_map, List.getElem?_map, hrow, Option.map_some, Option.map_some] at hline
    cases hline
    rw [← table.length_widths] at hlength
    exact length_rowLine (fits_row (List.mem_of_getElem? hrow)) hlength

end Table

/-- A table that is not written as JSON comes out in lines whose columns start at the same places. -/
theorem Report.table_aligned (report : Report) (hformat : report.format ≠ .json) (table : Table)
    (hcells : ∀ cells ∈ table.headers :: table.rows, ∀ cell ∈ cells, '\n' ∉ cell.toList) :
    ∃ widths header rule rows, table.Aligned widths header rule rows ∧
      (report.table table).toList.splitOn '\n' = header :: rule :: rows ++ [[]] := by
  obtain ⟨hheader, hrows⟩ := List.forall_mem_cons.1 hcells
  have hlines : report.table table = Report.lines table.lines := by
    rw [Report.table]
    cases hreport : report.format with
    | json => exact absurd hreport hformat
    | text => rfl
    | table => rfl
  have hflat : ∀ line ∈ table.lines, '\n' ∉ line.toList := by
    intro line hline
    rw [Table.lines, List.mem_cons, List.mem_cons, List.mem_map] at hline
    rcases hline with rfl | rfl | ⟨row, hrow, rfl⟩
    · exact Table.lineFeed_not_mem_rowLine hheader
    · exact Table.lineFeed_not_mem_ruleLine table.widths
    · exact Table.lineFeed_not_mem_rowLine (hrows row hrow)
  refine ⟨_, _, _, _, table.aligned_lines, ?_⟩
  rw [hlines, Report.splitOn_lines hflat]
  rfl

/-- A header with more bytes than characters, and rows that are shorter and longer than the headers. -/
def Table.ragged : Table := ⟨["né", "n"], [["a"], ["ж", "12", "more"], []]⟩

theorem Report.table_aligned_ragged :
    Report.table { format := .table } .ragged =
        "né  │ n \n────┼───\na  \nж   │ 12 │ more\n\n" ∧
      ∃ widths header rule rows, Table.ragged.Aligned widths header rule rows ∧
        (Report.table { format := .table } .ragged).toList.splitOn '\n' =
          header :: rule :: rows ++ [[]] :=
  ⟨by decide +kernel, Report.table_aligned _ (by decide) _ (by decide)⟩

end FormatGraph
