import FormatGraph.Command.Check
import FormatGraph.Proofs.Payload.RoundTrip
import FormatGraph.Proofs.Report.Table

/-! What is written about files that cannot be loaded. In every format of a report the errors stand in
the order in which they were found, each with its file and its message, and nothing else is written. -/

namespace FormatGraph

theorem Report.parse_object (report : Report) {json : Json} (h : json.Integral)
    (hdepth : json.depth ≤ Reader.maxDepth) :
    Json.parse (report.object json) = .ok json.sortKeys := by
  have hblanks : ∀ b ∈ ['\n'], Reader.isBlank b := by simp [Reader.isBlank]
  have hline (layout : Json.Layout) :
      Json.parse (line (String.ofList (json.chars layout))) = .ok json.sortKeys := by
    have hread := (Reader.value_reads_sortKeys h hdepth layout).whole hblanks
    rw [Json.parse, line, String.toList_append, String.toList_ofList]
    exact congrArg (Except.map Prod.fst) hread
  rw [object]
  split
  · exact hline (.indented 0)
  · exact hline .oneLine

namespace Check

/-- A text shows the entries as errors: in lines of text, as a value, or in the rows of a table. -/
def Shows (format : ReportFormat) (entries : List Diagnostic) (text : String) : Prop :=
  match format with
  | .text =>
    text = String.join (entries.map fun entry =>
      "[error] " ++ entry.file ++ ": " ++ entry.message ++ "\n") ++
        if entries = [] then "" else "\n"
  | .json =>
    Json.parse text = .ok (.obj [("diagnostics", .arr (entries.map fun entry =>
      .obj [("file", .str entry.file), ("level", .str "error"), ("message", .str entry.message)]))])
  | .table =>
    ∃ widths header rule rows,
      Table.Aligned ⟨["file", "level", "message"], entries.map fun entry =>
          [entry.file, "error",
            String.ofList (entry.message.toList.map fun c => if c = '\n' then ' ' else c)]⟩
        widths header rule rows ∧
      text.toList = (header :: rule :: rows).flatMap (· ++ ['\n'])

section
variable {found : Diagnostics} (h : ∀ entry ∈ found.entries, entry.severity = .error)
include h

theorem shows_lines :
    Shows .text found.entries
      (if found.entries.isEmpty then "" else Report.line found.report) := by
  have hlines : found.entries.map (fun entry => entry.report ++ "\n") =
      found.entries.map fun entry =>
        "[error] " ++ entry.file ++ ": " ++ entry.message ++ "\n" := by
    refine List.map_congr_left fun entry hentry => ?_
    rw [Diagnostic.report, h entry hentry]
    rfl
  rw [Shows, Report.line, Diagnostics.report, hlines]
  cases found.entries <;> simp

theorem sortKeys_toJson :
    found.toJson.sortKeys = .obj [("diagnostics", .arr (found.entries.map fun entry =>
      .obj [("file", .str entry.file), ("level", .str "error"),
        ("message", .str entry.message)]))] := by
  have hentries : (found.entries.map Diagnostic.toJson).map Json.sortKeys =
      found.entries.map fun entry => .obj [("file", .str entry.file), ("level", .str "error"),
        ("message", .str entry.message)] := by
    rw [List.map_map]
    refine List.map_congr_left fun entry hentry => ?_
    rw [Function.comp_apply, Diagnostic.toJson, h entry hentry]
    rfl
  rw [← hentries, ← Json.sortItems_eq_map]
  rfl

theorem shows_rows : Shows .table found.entries (Report.lines (table found).lines) := by
  have hrows : table found = ⟨["file", "level", "message"], found.entries.map fun entry =>
      [entry.file, "error",
        String.ofList (entry.message.toList.map fun c => if c = '\n' then ' ' else c)]⟩ := by
    refine congrArg (Table.mk _) (List.map_congr_left fun entry hentry => ?_)
    rw [h entry hentry]
    rfl
  rw [hrows]
  refine ⟨_, _, _, _, Table.aligned_lines _, ?_⟩
  change _ = ((Table.lines _).map String.toList).flatMap _
  rw [Report.toList_lines, List.flatMap_map]

end

theorem integral_toJson (found : Diagnostics) : found.toJson.Integral := by
  refine .obj (List.forall_mem_singleton.2 (.arr fun json hjson => ?_))
  obtain ⟨entry, -, rfl⟩ := List.mem_map.1 hjson
  refine .obj ?_
  simp only [List.forall_mem_cons]
  exact ⟨.str _, .str _, .str _, nofun⟩

theorem depth_toJson_le (found : Diagnostics) : found.toJson.depth ≤ 3 := by
  have hentries : Json.itemsDepth (found.entries.map Diagnostic.toJson) ≤ 1 := by
    refine Json.itemsDepth_le fun json hjson => ?_
    obtain ⟨entry, -, rfl⟩ := List.mem_map.1 hjson
    exact Nat.le_refl 1
  change max (Json.itemsDepth _ + 1) 0 + 1 ≤ 3
  omega

theorem shows_report (style : Report) (found : Diagnostics)
    (h : ∀ entry ∈ found.entries, entry.severity = .error) :
    Shows style.format found.entries (report style found) := by
  rw [report]
  cases hformat : style.format with
  | text => exact shows_lines h
  | json =>
    have hdepth : found.toJson.depth ≤ Reader.maxDepth :=
      (depth_toJson_le found).trans (by decide)
    rw [Shows, ← sortKeys_toJson h]
    exact style.parse_object (integral_toJson found) hdepth
  | table =>
    have htable : style.table (table found) = Report.lines (table found).lines := by
      rw [Report.table, hformat]
    exact htable ▸ shows_rows h

end Check

end FormatGraph
