import FormatGraph.Proofs.Text.Places

/-! The pieces of a text between its line feeds. Line feeds are looked for among the bytes of a text,
and the text is cut at characters. No byte of another character is a line feed, so the two agree: the
cuts never fall inside a character, and the pieces with line feeds between them are the whole text. -/

namespace FormatGraph

namespace Text

variable {before piece after : List Char}

theorem rawEndPos_ofList (cs : List Char) : (String.ofList cs).rawEndPos = ⟨byteSize cs⟩ := by
  have hsize : byteSize cs = (String.ofList cs).utf8ByteSize := by
    rw [← byteSize_eq_utf8ByteSize, String.toList_ofList]
  rw [hsize]
  rfl

theorem isValid_byteSize {text : String} (h : text.toList = before ++ after) :
    (⟨byteSize before⟩ : String.Pos.Raw).IsValid text := by
  rw [String.Pos.Raw.isValid_iff_exists_append]
  refine ⟨String.ofList before, String.ofList after, ?_, (rawEndPos_ofList before).symm⟩
  rw [← String.ofList_append, ← h, String.ofList_toList]

theorem extract_eq_toByteArray {text : String} (h : text.toList = before ++ piece ++ after) :
    text.toByteArray.extract (byteSize before) (byteSize before + byteSize piece) =
      (String.ofList piece).toByteArray := by
  have hsize (cs : List Char) : byteSize cs = (String.ofList cs).toByteArray.size := by
    rw [String.size_toByteArray, ← byteSize_eq_utf8ByteSize, String.toList_ofList]
  have htext : text.toByteArray = (String.ofList before).toByteArray ++
      ((String.ofList piece).toByteArray ++ (String.ofList after).toByteArray) := by
    rw [← String.toByteArray_append, ← String.toByteArray_append, ← String.ofList_append,
      ← String.ofList_append, ← List.append_assoc, ← h, String.ofList_toList]
  rw [htext, hsize before, hsize piece]
  -- The position at which the piece begins is zero bytes after what stands before it.
  calc ((String.ofList before).toByteArray ++ ((String.ofList piece).toByteArray ++
        (String.ofList after).toByteArray)).extract ((String.ofList before).toByteArray.size + 0)
          ((String.ofList before).toByteArray.size + (String.ofList piece).toByteArray.size)
      = ((String.ofList piece).toByteArray ++ (String.ofList after).toByteArray).extract 0
          (String.ofList piece).toByteArray.size := ByteArray.extract_append_size_add
    _ = (String.ofList piece).toByteArray := ByteArray.extract_append_eq_left rfl

theorem idxsOf_utf8EncodeChar (c : Char) (pos : Nat) :
    (String.utf8EncodeChar c).idxsOf 10 pos = if c = '\n' then [pos] else [] := by
  by_cases hc : c = '\n'
  · subst hc
    rw [if_pos rfl]
    rfl
  · have hcount := count_utf8EncodeChar c
    rw [if_neg hc, List.count_eq_zero] at hcount
    rw [if_neg hc, List.idxsOf_eq_nil_iff]
    intro byte hbyte
    rw [beq_eq_false_iff_ne]
    rintro rfl
    exact hcount hbyte

end Text

namespace LineIndex

open Text

variable {cs : List Char} {line : Nat}

theorem startsAfter_eq_map_idxsOf (pos : Nat) (cs : List Char) :
    startsAfter pos cs = ((cs.flatMap String.utf8EncodeChar).idxsOf 10 pos).map (· + 1) := by
  induction cs generalizing pos with
  | nil => rw [startsAfter, List.flatMap_nil, List.idxsOf_nil, List.map_nil]
  | cons c cs ih =>
    rw [startsAfter, List.flatMap_cons, List.idxsOf_append, idxsOf_utf8EncodeChar,
      String.length_utf8EncodeChar, List.map_append, ← ih]
    by_cases hc : c = '\n'
    · subst hc
      rw [if_pos rfl, if_pos rfl]
      rfl
    · rw [if_neg hc, if_neg hc, List.map_nil, List.nil_append]

structure Cuts (index : LineIndex) (text : String) (line : Nat) (piece : String) : Prop where
  /-- Both ends of the line are between characters, and the piece stands between them. -/
  span : ∃ start, index.starts[line]? = some start ∧
    (⟨start⟩ : String.Pos.Raw).IsValid text ∧
    (⟨index.lineEnd line⟩ : String.Pos.Raw).IsValid text ∧
    slice? start (index.lineEnd line) text.toList = some piece.toList ∧
    text.toByteArray.extract start (index.lineEnd line) = piece.toByteArray
  trimmed : ∃ returns, piece = index.lineText text line ++ String.ofList (.replicate returns '\r')
  trimmedAll : (index.lineText text line).toList.getLast? ≠ some '\r'

theorem cuts_ofList {text : String} {piece : List Char}
    (h : (text.toList.splitOn '\n')[line]? = some piece) :
    (ofText text).Cuts text line (String.ofList piece) := by
  obtain ⟨before, after, htext, hstart, hend⟩ := exists_span h
  have htext' : text.toList = (before ++ piece) ++ after := htext
  have hlineText : ((ofText text).lineText text line).toList = trimReturns piece := by
    rw [lineText, String.toList_ofList]
    exact (line_spec h).2.1
  obtain ⟨returns, hpiece, hlast⟩ := exists_eq_trimReturns_append piece
  constructor
  · refine ⟨byteSize before, hstart, ?_, ?_, ?_, ?_⟩
    · rw [List.append_assoc] at htext'
      exact isValid_byteSize htext'
    · rw [ofText, hend, ← byteSize_append]
      exact isValid_byteSize htext'
    · rw [ofText, hend, htext, slice?_append, String.toList_ofList]
    · rw [ofText, hend]
      exact extract_eq_toByteArray htext
  · refine ⟨returns, ?_⟩
    rw [← String.toList_inj, String.toList_append, String.toList_ofList, String.toList_ofList,
      hlineText]
    exact hpiece
  · rw [hlineText]
    exact hlast

theorem lineText_of_lineCount_le {index : LineIndex} (text : String)
    (h : index.lineCount ≤ line) : index.lineText text line = "" := by
  have hnone : index.starts[line]? = none := List.getElem?_eq_none h
  rw [lineText, lineChars, hnone]

structure Partitions (index : LineIndex) (text : String) (pieces : List String) : Prop where
  /-- Lines begin at the start of the text and after the bytes that are line feeds. -/
  starts : index.starts = 0 :: (text.toByteArray.data.toList.idxsOf 10).map (· + 1)
  split : pieces.map String.toList = text.toList.splitOn '\n'
  joined : "\n".intercalate pieces = text
  lineCount : index.lineCount = pieces.length
  cuts : ∀ line piece, pieces[line]? = some piece → index.Cuts text line piece
  beyond : ∀ line, index.lineCount ≤ line → index.lineText text line = ""

/-- Every text is cut into its pieces between line feeds, of which the lines are the text without the
carriage returns at the end. -/
theorem ofText_partitions (text : String) : ∃ pieces, (ofText text).Partitions text pieces := by
  have hsplit : ((text.toList.splitOn '\n').map String.ofList).map String.toList =
      text.toList.splitOn '\n' := by
    rw [List.map_map]
    simp only [Function.comp_def, String.toList_ofList, List.map_id']
  refine ⟨(text.toList.splitOn '\n').map String.ofList, ?_, hsplit, ?_, ?_, ?_, ?_⟩
  · rw [toList_toByteArray, ← startsAfter_eq_map_idxsOf]
    rfl
  · rw [← String.toList_inj, String.toList_intercalate, hsplit]
    exact List.intercalate_splitOn '\n'
  · rw [List.length_map]
    exact lineCount_eq text.toList
  · intro line piece hpiece
    rw [List.getElem?_map] at hpiece
    obtain ⟨cs, hcs, rfl⟩ := Option.map_eq_some_iff.1 hpiece
    exact cuts_ofList hcs
  · exact fun line => lineText_of_lineCount_le text

end LineIndex

end FormatGraph
