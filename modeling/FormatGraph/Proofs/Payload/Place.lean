import FormatGraph.Payload.GraphPayload
import FormatGraph.Payload.Error
import FormatGraph.Payload.LineMap
import FormatGraph.Payload.TokenPayload
import FormatGraph.Proofs.Text.Lines
import FormatGraph.Proofs.Traversal

/-! Where an error in a text is. Its offset, its line and column, and the line that it shows are
three ways to give one place in the text. -/

namespace FormatGraph

/-- The error points to one place of the text in all the ways in which it gives it. -/
structure PayloadError.PointsInto (error : PayloadError) (text : String) : Prop where
  line_pos : 1 ≤ error.line
  line_le : error.line ≤ (LineIndex.ofText text).lineCount
  column_pos : 1 ≤ error.column
  offset_le : error.offset ≤ Text.byteSize text.toList
  offset : (LineIndex.ofText text).offset (error.line - 1) (error.column - 1) = .ok error.offset
  lineCol : (LineIndex.ofText text).lineCol error.offset = (error.line - 1, error.column - 1)
  /-- What is shown is that piece of the text between line feeds, less carriage returns. -/
  excerpt : ∃ returns, (text.toList.splitOn '\n')[error.line - 1]? =
    some (error.excerpt.toList ++ List.replicate returns '\r')
  excerpt_end : error.excerpt.toList.getLast? ≠ some '\r'
  excerpt_line : '\n' ∉ error.excerpt.toList

namespace PayloadError

/-- What may be given as the place of an error: the line of a position in the text, counted from one,
with the bytes before the position on that line; or zeros, for no position. -/
def IsPlaceIn (text : List Char) (place : Nat × Nat) : Prop :=
  place = (0, 0) ∨ ∃ pos ≤ Text.byteSize text,
    place = (((LineIndex.ofChars text).lineCol pos).1 + 1, ((LineIndex.ofChars text).lineCol pos).2)

theorem isPlaceIn_lineCol (text : List Char) (fault : Fault) :
    IsPlaceIn text (fault.lineCol (.ofChars text)) :=
  .inr ⟨Text.byteSize text - fault.left, Nat.sub_le _ _, rfl⟩

theorem IsPlaceIn.exists_lineCol {text : List Char} {place : Nat × Nat} (h : IsPlaceIn text place) :
    ∃ pos ≤ Text.byteSize text, ∃ line col, (LineIndex.ofChars text).lineCol pos = (line, col) ∧
      max place.1 1 = line + 1 ∧ max place.2 1 - 1 = col - 1 := by
  rcases h with rfl | ⟨pos, hpos, rfl⟩
  · have hstart : (LineIndex.ofChars text).lineCol 0 = (0, 0) :=
      (LineIndex.lineCol_eq_iff (Nat.zero_le _)).2 ⟨0, rfl, rfl, Nat.zero_le _⟩
    exact ⟨0, Nat.zero_le _, 0, 0, hstart, rfl, rfl⟩
  · rcases hlineCol : (LineIndex.ofChars text).lineCol pos with ⟨line, col⟩
    refine ⟨pos, hpos, line, col, hlineCol, ?_, ?_⟩ <;> dsimp only <;> omega

theorem ofPlace_pointsInto (file text message : String) {place : Nat × Nat}
    (hplace : IsPlaceIn text.toList place)
    (hsize : Text.byteSize text.toList < LineIndex.wordSize) :
    (ofPlace file text.toList message place).PointsInto text := by
  have hindex : LineIndex.ofText text = .ofChars text.toList := rfl
  generalize hcs : text.toList = cs at hplace hsize hindex
  obtain ⟨pos, hpos, line, col, hlineCol, hmaxLine, hmaxCol⟩ := hplace.exists_lineCol
  obtain ⟨start, hstart, hcol, hend⟩ := (LineIndex.lineCol_eq_iff hpos).1 hlineCol
  have hline : line < (cs.splitOn '\n').length := by
    rw [← LineIndex.lineCount_eq]
    exact (List.getElem?_eq_some_iff.1 hstart).1
  have hpiece := List.getElem?_eq_getElem hline
  obtain ⟨hfeed, hchars, -⟩ := LineIndex.line_spec hpiece
  -- The offset is that of the byte before the place, or of the place at the start of a line.
  have hbefore : start + (col - 1) ≤ pos := by omega
  have hoffset : (LineIndex.ofChars cs).offset line (col - 1) = .ok (start + (col - 1)) :=
    LineIndex.offset_eq hstart (by omega) (by omega)
  have herror : ofPlace file cs message place =
      { file, message := withoutPlace message, offset := start + (col - 1),
        line := line + 1, column := max place.2 1,
        excerpt := String.ofList (Text.trimReturns (cs.splitOn '\n')[line]) } := by
    simp only [ofPlace, hmaxLine, hmaxCol, Nat.add_sub_cancel, hoffset, hchars]
    rfl
  obtain ⟨returns, hreturns, hlast⟩ := Text.exists_eq_trimReturns_append (cs.splitOn '\n')[line]
  rw [herror]
  refine ⟨Nat.succ_pos line, ?_, Nat.le_max_right _ 1, ?_, ?_, ?_, ⟨returns, ?_⟩, ?_, ?_⟩
  · rw [hindex, LineIndex.lineCount_eq]
    exact hline
  · rw [hcs]
    exact hbefore.trans hpos
  · rw [hindex]
    dsimp only
    rw [Nat.add_sub_cancel, hmaxCol, hoffset]
  · rw [hindex]
    dsimp only
    rw [Nat.add_sub_cancel, hmaxCol]
    exact (LineIndex.lineCol_eq_iff (hbefore.trans hpos)).2 ⟨start, hstart, rfl, hbefore.trans hend⟩
  · rw [hcs, Nat.add_sub_cancel, hpiece, String.toList_ofList, ← hreturns]
  · rwa [String.toList_ofList]
  · rw [String.toList_ofList]
    intro hmem
    apply hfeed
    rw [hreturns]
    exact List.mem_append_left _ hmem

end PayloadError

namespace Shaped

variable {α : Type} [Shaped α]

theorem left_le_of_ofText_eq_error {cs : List Char} {fault : Fault}
    (h : (ofText cs : Except Fault α) = .error fault) : fault.left ≤ Text.byteSize cs := by
  have hwithin := ((shape α).read Reader.maxDepth).whole.within cs
  unfold ofText Shape.ofText at h
  revert h hwithin
  cases ((shape α).read Reader.maxDepth).whole.run cs with
  | ok r =>
    intro h
    cases h
  | error fault' =>
    intro h hwithin
    cases h
    exact hwithin

/-- A text that cannot be read as a payload of any shape gives an error that points into it: to the
last byte before the place where reading stopped, or to the first of the line if it stopped there. -/
theorem decodeText_error_place {file text : String} {error : PayloadError}
    (hsize : Text.byteSize text.toList < LineIndex.wordSize)
    (h : (decodeText file text : Except PayloadError α) = .error error) :
    error.file = file ∧ error.PointsInto text ∧
      ∃ fault col, (ofText text.toList : Except Fault α) = .error fault ∧
        fault.left ≤ Text.byteSize text.toList ∧
        (LineIndex.ofText text).lineCol (Text.byteSize text.toList - fault.left) =
          (error.line - 1, col) ∧ error.column = max col 1 := by
  obtain ⟨fault, hfault, rfl⟩ := mapError_eq_error_iff.1 h
  refine ⟨rfl, PayloadError.ofPlace_pointsInto file text _ ?_ hsize, fault, ?_⟩
  · exact PayloadError.isPlaceIn_lineCol text.toList fault
  · have hline : (PayloadError.ofFault file text.toList fault).line =
        ((LineIndex.ofText text).lineCol (Text.byteSize text.toList - fault.left)).1 + 1 :=
      Nat.max_eq_left (Nat.succ_pos _)
    refine ⟨_, hfault, left_le_of_ofText_eq_error hfault, ?_, rfl⟩
    rw [hline, Nat.add_sub_cancel]
    rfl

/-- A key without its colon, on a line with a character of two bytes and a carriage return. -/
theorem decodeText_error_place_key :
    ∃ error, (decodeText "a" "\x7b\r\n \"é\" 1\r\n" : Except PayloadError GraphPayload) =
        .error error ∧
      error.line = 2 ∧ error.column = 7 ∧ error.offset = 9 ∧ error.excerpt = " \"é\" 1" ∧
      error.PointsInto "\x7b\r\n \"é\" 1\r\n" := by
  have h : (decodeText "a" "\x7b\r\n \"é\" 1\r\n" : Except PayloadError GraphPayload) =
      .error ⟨"a", "expected `:`", 9, 2, 7, " \"é\" 1"⟩ := by
    with_unfolding_all rfl
  have hplace := decodeText_error_place (by decide) h
  exact ⟨_, h, rfl, rfl, rfl, rfl, hplace.2.1⟩

end Shaped

end FormatGraph
