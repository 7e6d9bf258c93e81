import FormatGraph.Proofs.Text.Lines

/-! Places in a text. A place is given by its byte offset, or by its line and the column there, and
each of the two can be had from the other. -/

namespace FormatGraph

namespace Text

theorem toList_toByteArray (text : String) :
    text.toByteArray.data.toList = text.toList.flatMap String.utf8EncodeChar := by
  rw [← String.utf8Encode_toList, List.utf8Encode, List.data_toByteArray]

theorem byteSize_eq_utf8ByteSize (text : String) : byteSize text.toList = text.utf8ByteSize := by
  have hlength (cs : List Char) : byteSize cs = (cs.flatMap String.utf8EncodeChar).length := by
    induction cs with
    | nil => rfl
    | cons c cs ih =>
      rw [byteSize, List.flatMap_cons, List.length_append, String.length_utf8EncodeChar, ih]
  rw [hlength, ← toList_toByteArray, Array.length_toList]
  exact String.size_toByteArray

theorem lineFeed_ne_or {low high : UInt8} (h : 128 ≤ high.toNat) : 10 ≠ low ||| high := by
  intro heq
  have hle : high.toNat ≤ (low ||| high).toNat := by
    rw [UInt8.toNat_or]
    exact Nat.right_le_or
  rw [← heq] at hle
  have hten : (10 : UInt8).toNat = 10 := rfl
  omega

theorem count_utf8EncodeChar (c : Char) :
    (String.utf8EncodeChar c).count 10 = if c = '\n' then 1 else 0 := by
  by_cases hc : c = '\n'
  · subst hc
    rfl
  rw [if_neg hc, List.count_eq_zero]
  rcases Char.utf8Size_eq c with hone | htwo | hthree | hfour
  · rw [String.utf8EncodeChar_eq_singleton hone, List.mem_singleton]
    intro hfeed
    have hle : c.val.toNat ≤ 127 := UInt32.le_iff_toNat_le.1 (Char.utf8Size_eq_one_iff.1 hone)
    have hval : c.val.toNat % 256 = 10 := (congrArg UInt8.toNat hfeed).symm
    refine hc (Char.ext (UInt32.toNat_inj.1 ?_))
    rw [← Nat.mod_eq_of_lt (show c.val.toNat < 256 by omega), hval]
    rfl
  · rw [String.utf8EncodeChar_eq_cons_cons htwo]
    simp only [List.mem_cons, List.not_mem_nil, or_false, not_or]
    exact ⟨lineFeed_ne_or (by decide), lineFeed_ne_or (by decide)⟩
  · rw [String.utf8EncodeChar_eq_cons_cons_cons hthree]
    simp only [List.mem_cons, List.not_mem_nil, or_false, not_or]
    exact ⟨lineFeed_ne_or (by decide), lineFeed_ne_or (by decide), lineFeed_ne_or (by decide)⟩
  · rw [String.utf8EncodeChar_eq_cons_cons_cons_cons hfour]
    simp only [List.mem_cons, List.not_mem_nil, or_false, not_or]
    exact ⟨lineFeed_ne_or (by decide), lineFeed_ne_or (by decide), lineFeed_ne_or (by decide),
      lineFeed_ne_or (by decide)⟩

theorem count_toByteArray (text : String) :
    text.toByteArray.data.toList.count 10 = text.toList.count '\n' := by
  rw [toList_toByteArray]
  induction text.toList with
  | nil => rfl
  | cons c cs ih =>
    rw [List.flatMap_cons, List.count_append, count_utf8EncodeChar, ih, List.count_cons]
    simp only [beq_iff_eq]
    exact Nat.add_comm _ _

end Text

namespace LineIndex

open Text

variable {cs : List Char} {offset line later col start : Nat}

theorem lineCount_eq_count (cs : List Char) : (ofChars cs).lineCount = cs.count '\n' + 1 := by
  have hlength (pos : Nat) : (startsAfter pos cs).length = cs.count '\n' := by
    induction cs generalizing pos with
    | nil => rfl
    | cons c cs ih =>
      rw [startsAfter]
      split_ifs with hc
      · rw [hc, List.length_cons, ih, List.count_cons_self]
      · rw [ih, List.count_cons_of_ne hc]
  rw [lineCount, ofChars, List.length_cons, hlength]

theorem le_of_mem_startsAfter {pos : Nat} (h : start ∈ startsAfter pos cs) :
    start ≤ pos + byteSize cs := by
  induction cs generalizing pos with
  | nil => cases h
  | cons c cs ih =>
    have hrest (hmem : start ∈ startsAfter (pos + c.utf8Size) cs) :
        start ≤ pos + byteSize (c :: cs) := by
      rw [byteSize, ← Nat.add_assoc]
      exact ih hmem
    rw [startsAfter] at h
    split_ifs at h
    · rcases List.mem_cons.1 h with rfl | hmem
      · exact Nat.add_le_add_left (Nat.le_add_right _ _) pos
      · exact hrest hmem
    · exact hrest h

theorem lineEnd_le (cs : List Char) (line : Nat) : (ofChars cs).lineEnd line ≤ byteSize cs := by
  rw [lineEnd]
  cases hnext : (ofChars cs).starts[line + 1]? with
  | none => exact Nat.le_refl _
  | some next =>
    have hle := le_of_mem_startsAfter (List.mem_of_getElem? (i := line) hnext)
    exact (Nat.sub_le next 1).trans (Nat.zero_add (byteSize cs) ▸ hle)

theorem lineEnd_lt_start (h : line < later) (hstart : (ofChars cs).starts[later]? = some start) :
    (ofChars cs).lineEnd line < start := by
  have hsorted := List.pairwise_iff_getElem.1 (starts_sorted 0 cs)
  obtain ⟨hlater, hget⟩ := List.getElem?_eq_some_iff.1 hstart
  have hnext : line + 1 < (ofChars cs).starts.length := by omega
  have hpos : (ofChars cs).starts[0] < (ofChars cs).starts[line + 1] :=
    hsorted 0 (line + 1) _ hnext (Nat.succ_pos line)
  have hle : (ofChars cs).starts[line + 1] ≤ start := by
    rw [← hget]
    rcases Nat.eq_or_lt_of_le (Nat.succ_le_of_lt h) with heq | hlt
    · simp only [Nat.succ_eq_add_one] at heq
      simp only [heq, Nat.le_refl]
    · exact (hsorted (line + 1) later hnext hlater hlt).le
  rw [lineEnd, List.getElem?_eq_getElem hnext]
  dsimp only
  omega

theorem exists_lineCol (hoffset : offset ≤ byteSize cs) :
    ∃ start, (ofChars cs).starts[((ofChars cs).lineCol offset).1]? = some start ∧
      start + ((ofChars cs).lineCol offset).2 = offset ∧
      offset ≤ (ofChars cs).lineEnd ((ofChars cs).lineCol offset).1 :=
  (lineCol_eq_iff hoffset).1 rfl

theorem lineCol_min (cs : List Char) (offset : Nat) :
    (ofChars cs).lineCol (min offset (byteSize cs)) = (ofChars cs).lineCol offset := by
  have hsize : (ofChars cs).size = byteSize cs := rfl
  simp only [lineCol, hsize, Nat.min_assoc, Nat.min_self]

theorem offset_lineCol (hsize : byteSize cs < wordSize) (offset : Nat) :
    (ofChars cs).offset ((ofChars cs).lineCol offset).1 ((ofChars cs).lineCol offset).2 =
      .ok (min offset (byteSize cs)) := by
  have hle : min offset (byteSize cs) ≤ byteSize cs := Nat.min_le_right _ _
  obtain ⟨start, hstart, hcol, hend⟩ := exists_lineCol hle
  rw [lineCol_min] at hstart hcol hend
  rw [offset_eq hstart (by omega) (by omega), hcol]

theorem lineCol_offset (hsize : byteSize cs < wordSize) {piece : List Char}
    (hpiece : (cs.splitOn '\n')[line]? = some piece) (hcol : col ≤ byteSize piece) :
    (ofChars cs).lineCol <$> (ofChars cs).offset line col = .ok (line, col) := by
  obtain ⟨-, -, start, hstart, hend⟩ := line_spec hpiece
  have hle := lineEnd_le cs line
  have hplace : (ofChars cs).lineCol (start + col) = (line, col) :=
    (lineCol_eq_iff (by omega)).2 ⟨start, hstart, rfl, by omega⟩
  rw [offset_eq hstart (by omega) (by omega), ← hplace]
  rfl

theorem lineCol_lt {offset' : Nat} (h : offset < offset') (hoffset' : offset' ≤ byteSize cs) :
    Prod.Lex (· < ·) (· < ·) ((ofChars cs).lineCol offset) ((ofChars cs).lineCol offset') := by
  obtain ⟨start, hstart, hcol, hend⟩ := exists_lineCol (h.le.trans hoffset')
  obtain ⟨start', hstart', hcol', hend'⟩ := exists_lineCol hoffset'
  rw [Prod.lex_def]
  rcases Nat.lt_trichotomy ((ofChars cs).lineCol offset).1 ((ofChars cs).lineCol offset').1 with
    hlt | heq | hgt
  · exact .inl hlt
  · rw [heq] at hstart
    cases hstart.symm.trans hstart'
    exact .inr ⟨heq, by omega⟩
  · -- The line of the larger offset would end before the other begins.
    have hbefore := lineEnd_lt_start hgt hstart
    omega

structure Places (index : LineIndex) (text : String) : Prop where
  offset_lineCol : ∀ offset, index.offset (index.lineCol offset).1 (index.lineCol offset).2 =
    .ok (min offset text.utf8ByteSize)
  /-- Every line is a piece of the text between line feeds. -/
  lineCol_offset : ∀ line < index.lineCount, ∃ piece, (text.toList.splitOn '\n')[line]? = some piece ∧
    ∀ col ≤ (String.ofList piece).utf8ByteSize,
      index.lineCol <$> index.offset line col = .ok (line, col)
  lineCount : index.lineCount = text.toByteArray.data.toList.count 10 + 1
  lineCol_lt : ∀ offset offset', offset < offset' → offset' ≤ text.utf8ByteSize →
    Prod.Lex (· < ·) (· < ·) (index.lineCol offset) (index.lineCol offset')

/-- Offsets on the one hand and lines with columns on the other determine each other, for every text
whose size is a word. -/
theorem ofText_places (text : String) (hsize : text.utf8ByteSize < wordSize) :
    (ofText text).Places text := by
  rw [← byteSize_eq_utf8ByteSize] at hsize
  refine ⟨?_, ?_, ?_, ?_⟩
  · rw [← byteSize_eq_utf8ByteSize]
    exact offset_lineCol hsize
  · intro line hline
    rw [ofText, lineCount_eq] at hline
    refine ⟨_, List.getElem?_eq_getElem hline, fun col hcol => ?_⟩
    rw [← byteSize_eq_utf8ByteSize, String.toList_ofList] at hcol
    exact lineCol_offset hsize (List.getElem?_eq_getElem hline) hcol
  · rw [ofText, lineCount_eq_count, count_toByteArray]
  · rw [← byteSize_eq_utf8ByteSize]
    exact fun _ _ => lineCol_lt

/-- A character of two bytes, an empty line, and a line feed at the end of the text. -/
theorem ofText_places_feeds :
    (ofText "é\r\n\nb\n").Places "é\r\n\nb\n" ∧ (ofText "é\r\n\nb\n").lineCol 3 = (0, 3) ∧
      (ofText "é\r\n\nb\n").lineCol 4 = (1, 0) ∧ (ofText "é\r\n\nb\n").lineCol 9 = (3, 0) ∧
      (ofText "é\r\n\nb\n").offset 3 0 = .ok 7 :=
  ⟨ofText_places _ (by decide), by decide, by decide, by decide, by decide⟩

end LineIndex

end FormatGraph
