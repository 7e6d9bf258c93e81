import FormatGraph.Proofs.Text.Places
import Mathlib.Data.List.GetD

/-! The columns of a line. A column counts from the start of its line, and one past the end of the
line stands for the end. Offsets are in the order of lines and columns. Start and column are added
before the sum is kept to the line, so a column whose sum is no word has no offset. -/

namespace FormatGraph

namespace Text

/-- Where a line begins: after the earlier lines, each with its line feed. -/
def lineStart (cs : List Char) (line : Nat) : Nat :=
  byteSize (((cs.splitOn '\n').take line).flatMap (· ++ ['\n']))

def lineStop (cs : List Char) (line : Nat) : Nat :=
  lineStart cs line + byteSize ((cs.splitOn '\n').getD line [])

variable {cs : List Char} {line : Nat}

theorem lineStart_le_lineStop (cs : List Char) (line : Nat) : lineStart cs line ≤ lineStop cs line :=
  Nat.le_add_right _ _

theorem lineStart_succ (h : line < (cs.splitOn '\n').length) :
    lineStart cs (line + 1) = lineStop cs line + 1 := by
  have hfeed : byteSize ['\n'] = 1 := rfl
  rw [lineStop, lineStart, lineStart, List.take_succ_eq_append_getElem h, List.flatMap_append,
    byteSize_append, List.flatMap_singleton, byteSize_append, hfeed, List.getD_eq_getElem _ _ h,
    Nat.add_assoc]

end Text

namespace LineIndex

open Text

variable {cs : List Char} {line later col col' place place' : Nat}

theorem lineEnd_eq_of_starts_eq (h : (ofChars cs).starts[line]? = some (lineStart cs line)) :
    (ofChars cs).lineEnd line = lineStop cs line := by
  have hline : line < (cs.splitOn '\n').length := by
    rw [← lineCount_eq]
    exact (List.getElem?_eq_some_iff.1 h).1
  obtain ⟨-, -, start, hstart, hend⟩ := line_spec (List.getElem?_eq_getElem hline)
  cases h.symm.trans hstart
  rw [hend, lineStop, List.getD_eq_getElem _ _ hline]

theorem starts_eq (hline : line < (ofChars cs).lineCount) :
    (ofChars cs).starts[line]? = some (lineStart cs line) := by
  induction line with
  | zero => rfl
  | succ line ih =>
    have hline' : line < (ofChars cs).lineCount := Nat.lt_of_succ_lt hline
    have hlineEnd := lineEnd_eq_of_starts_eq (ih hline')
    obtain ⟨next, hnext⟩ : ∃ next, (ofChars cs).starts[line + 1]? = some next :=
      ⟨_, List.getElem?_eq_getElem hline⟩
    -- The line before ends one byte in front of this one.
    have hfeed : next - 1 = lineStop cs line := by
      rw [← hlineEnd, lineEnd, hnext]
    have hafter : lineStop cs line < next := by
      rw [← hlineEnd]
      exact lineEnd_lt_start (Nat.lt_succ_self line) hnext
    rw [lineCount_eq] at hline'
    rw [hnext, lineStart_succ hline', Option.some.injEq]
    omega

theorem lineEnd_eq (hline : line < (ofChars cs).lineCount) :
    (ofChars cs).lineEnd line = lineStop cs line :=
  lineEnd_eq_of_starts_eq (starts_eq hline)

theorem lineStop_le (hline : line < (ofChars cs).lineCount) : lineStop cs line ≤ byteSize cs := by
  rw [← lineEnd_eq hline]
  exact lineEnd_le cs line

theorem lineStop_lt_lineStart (h : line < later) (hlater : later < (ofChars cs).lineCount) :
    lineStop cs line < lineStart cs later := by
  rw [← lineEnd_eq (h.trans hlater)]
  exact lineEnd_lt_start h (starts_eq hlater)

def Fits (cs : List Char) (line col : Nat) : Prop :=
  lineStart cs line + col < wordSize

instance : Decidable (Fits cs line col) :=
  inferInstanceAs (Decidable (_ < _))

theorem Fits.of_le (hfits : Fits cs line col') (h : col ≤ col') : Fits cs line col :=
  Nat.lt_of_le_of_lt (Nat.add_le_add_left h _) hfits

theorem offset_of_fits (hline : line < (ofChars cs).lineCount) (hfits : Fits cs line col) :
    (ofChars cs).offset line col = .ok (min (lineStart cs line + col) (lineStop cs line)) := by
  rw [offset, starts_eq hline, lineEnd_eq hline]
  exact if_pos hfits

theorem offset_of_not_fits (hline : line < (ofChars cs).lineCount) (hfits : ¬Fits cs line col) :
    (ofChars cs).offset line col = .error .overflow := by
  rw [offset, starts_eq hline]
  exact if_neg hfits

theorem offset_of_lineCount_le (hline : (ofChars cs).lineCount ≤ line) (col : Nat) :
    (ofChars cs).offset line col = .ok (byteSize cs) := by
  have hnone : (ofChars cs).starts[line]? = none := List.getElem?_eq_none hline
  rw [offset, hnone]
  rfl

theorem offset_eq_ok_iff (hline : line < (ofChars cs).lineCount) :
    (ofChars cs).offset line col = .ok place ↔
      Fits cs line col ∧ place = min (lineStart cs line + col) (lineStop cs line) := by
  by_cases hfits : Fits cs line col
  · rw [offset_of_fits hline hfits, Except.ok.injEq, eq_comm, and_iff_right hfits]
  · rw [offset_of_not_fits hline hfits]
    exact ⟨nofun, fun h => absurd h.1 hfits⟩

theorem onLine_of_offset (hline : line < (ofChars cs).lineCount)
    (h : (ofChars cs).offset line col = .ok place) :
    lineStart cs line ≤ place ∧ place ≤ lineStop cs line := by
  have hstart := lineStart_le_lineStop cs line
  obtain ⟨-, rfl⟩ := (offset_eq_ok_iff hline).1 h
  omega

theorem le_of_offset (h : (ofChars cs).offset line col = .ok place) : place ≤ byteSize cs := by
  rcases Nat.lt_or_ge line (ofChars cs).lineCount with hline | hline
  · exact (onLine_of_offset hline h).2.trans (lineStop_le hline)
  · cases h.symm.trans (offset_of_lineCount_le hline col)
    exact Nat.le_refl _

theorem exists_offset_le (hcol : col ≤ col') (h : (ofChars cs).offset line col' = .ok place') :
    ∃ place ≤ place', (ofChars cs).offset line col = .ok place := by
  rcases Nat.lt_or_ge line (ofChars cs).lineCount with hline | hline
  · obtain ⟨hfits, rfl⟩ := (offset_eq_ok_iff hline).1 h
    exact ⟨_, by omega, offset_of_fits hline (hfits.of_le hcol)⟩
  · cases h.symm.trans (offset_of_lineCount_le hline col')
    exact ⟨_, Nat.le_refl _, offset_of_lineCount_le hline col⟩

theorem offset_le_offset (hlines : line < later) (h : (ofChars cs).offset line col = .ok place)
    (h' : (ofChars cs).offset later col' = .ok place') : place ≤ place' := by
  rcases Nat.lt_or_ge later (ofChars cs).lineCount with hlater | hlater
  · have hbefore := (onLine_of_offset (hlines.trans hlater) h).2
    have hbetween := lineStop_lt_lineStart hlines hlater
    have hafter := (onLine_of_offset hlater h').1
    omega
  · cases h'.symm.trans (offset_of_lineCount_le hlater col')
    exact le_of_offset h

structure Clamps (index : LineIndex) (text : String) : Prop where
  /-- A column that fits counts from the start of its line, up to the end of the line. -/
  clamped : ∀ line < index.lineCount, ∀ col, Fits text.toList line col →
    index.offset line col =
      .ok (min (lineStart text.toList line + col) (lineStop text.toList line))
  overflows : ∀ line < index.lineCount, ∀ col, ¬Fits text.toList line col →
    index.offset line col = .error .overflow
  onLine : ∀ line < index.lineCount, ∀ col place, index.offset line col = .ok place →
    lineStart text.toList line ≤ place ∧ place ≤ lineStop text.toList line
  beyond : ∀ line, index.lineCount ≤ line → ∀ col, index.offset line col = .ok text.utf8ByteSize
  mono : ∀ line col col' place', col ≤ col' → index.offset line col' = .ok place' →
    ∃ place ≤ place', index.offset line col = .ok place
  ordered : ∀ line later col col' place place', line < later →
    index.offset line col = .ok place → index.offset later col' = .ok place' → place ≤ place'

/-- Offsets are kept to their lines, and in the order of lines and columns, for all columns that can
be added to the start of their line. The others have no offset. -/
theorem ofText_clamps (text : String) : (ofText text).Clamps text where
  clamped _ hline _ := offset_of_fits hline
  overflows _ hline _ := offset_of_not_fits hline
  onLine _ hline _ _ := onLine_of_offset hline
  beyond _ hline col := by
    rw [← byteSize_eq_utf8ByteSize]
    exact offset_of_lineCount_le hline col
  mono _ _ _ _ := exists_offset_le
  ordered _ _ _ _ _ _ := offset_le_offset

/-- The second line of this text runs from offset three to five. Its largest columns have no offset,
though those of the first line have one. -/
theorem ofText_offset_unclamped :
    1 < (ofText "ab\ncd").lineCount ∧ lineStart "ab\ncd".toList 1 = 3 ∧
      lineStop "ab\ncd".toList 1 = 5 ∧
      (ofText "ab\ncd").offset 1 (18446744073709551612 : UInt64).toNat = .ok 5 ∧
      (ofText "ab\ncd").offset 1 (18446744073709551613 : UInt64).toNat = .error .overflow ∧
      (ofText "ab\ncd").offset 0 (18446744073709551615 : UInt64).toNat = .ok 2 := by
  decide

end LineIndex

end FormatGraph
