import FormatGraph.Text.Lines
import Mathlib.Data.List.Basic
import Mathlib.Data.List.TakeWhile
import Mathlib.Data.Nat.Basic

/-! The lines of a text are its pieces between line feeds. Every byte offset up to the end of the
text lies on exactly one of them, and the index finds that line and cuts it out. -/

namespace FormatGraph

namespace Text

theorem byteSize_cons_eq_succ (c : Char) (cs : List Char) :
    ∃ n, byteSize (c :: cs) = n + 1 ∧ c.utf8Size ≤ n + 1 ∧ n + 1 - c.utf8Size = byteSize cs := by
  have hpos : 0 < c.utf8Size := c.utf8Size_pos
  refine ⟨byteSize (c :: cs) - 1, ?_⟩
  rw [byteSize]
  omega

theorem dropBytes?_append (cs ds : List Char) : dropBytes? (byteSize cs) (cs ++ ds) = some ds := by
  induction cs with
  | nil => rw [byteSize, List.nil_append, dropBytes?]
  | cons c cs ih =>
    obtain ⟨n, hn, hle, hrest⟩ := byteSize_cons_eq_succ c cs
    rw [hn, List.cons_append, dropBytes?, if_pos hle, hrest, ih]

theorem takeBytes?_append (cs ds : List Char) : takeBytes? (byteSize cs) (cs ++ ds) = some cs := by
  induction cs with
  | nil => rw [byteSize, List.nil_append, takeBytes?]
  | cons c cs ih =>
    obtain ⟨n, hn, hle, hrest⟩ := byteSize_cons_eq_succ c cs
    rw [hn, List.cons_append, takeBytes?, if_pos hle, hrest, ih, Option.map_some]

theorem slice?_append (before cs after : List Char) :
    slice? (byteSize before) (byteSize before + byteSize cs) (before ++ cs ++ after) = some cs := by
  rw [slice?, if_pos (Nat.le_add_right _ _), List.append_assoc, dropBytes?_append, Option.bind_some,
    Nat.add_sub_cancel_left, takeBytes?_append]

theorem exists_eq_trimReturns_append (cs : List Char) :
    ∃ count, cs = trimReturns cs ++ List.replicate count '\r' ∧
      (trimReturns cs).getLast? ≠ some '\r' := by
  have hsplit := List.takeWhile_append_dropWhile (p := (· = '\r')) (l := cs.reverse)
  have hrun : cs.reverse.takeWhile (· = '\r') =
      List.replicate (cs.reverse.takeWhile (· = '\r')).length '\r' := by
    refine List.eq_replicate_of_mem fun c hc => ?_
    simpa using List.mem_takeWhile_imp hc
  refine ⟨(cs.reverse.takeWhile (· = '\r')).length, ?_, ?_⟩
  · have hcs := congrArg List.reverse hsplit
    rw [List.reverse_append, List.reverse_reverse, hrun, List.reverse_replicate] at hcs
    exact hcs.symm
  · rw [trimReturns, List.getLast?_reverse]
    intro hhead
    have hne := List.head?_dropWhile_not (· = '\r') cs.reverse
    rw [hhead] at hne
    simp at hne

end Text

namespace LineIndex

open Text

theorem starts_sorted (pos : Nat) (cs : List Char) : (pos :: startsAfter pos cs).Pairwise (· < ·) := by
  induction cs generalizing pos with
  | nil => simp [startsAfter]
  | cons c cs ih =>
    have hpos : 0 < c.utf8Size := c.utf8Size_pos
    have hnext := ih (pos + c.utf8Size)
    have hbelow : ∀ start ∈ startsAfter (pos + c.utf8Size) cs, pos < start := by
      intro start hstart
      have hlt := List.rel_of_pairwise_cons hnext hstart
      omega
    rw [startsAfter]
    split_ifs with hc
    · refine List.pairwise_cons.2 ⟨List.forall_mem_cons.2 ⟨by omega, hbelow⟩, hnext⟩
    · exact List.pairwise_cons.2 ⟨hbelow, (List.pairwise_cons.1 hnext).2⟩

theorem countP_eq_zero_iff {starts : List Nat} (hsorted : starts.Pairwise (· < ·)) {offset : Nat} :
    starts.countP (· ≤ offset) = 0 ↔ ∀ first, starts[0]? = some first → offset < first := by
  rw [List.countP_eq_zero]
  cases starts with
  | nil => simp
  | cons first rest =>
    have hlater := (List.pairwise_cons.1 hsorted).1
    simp only [decide_eq_true_eq, Nat.not_le, List.mem_cons, forall_eq_or_imp]
    constructor
    · rintro ⟨hfirst, -⟩ other hother
      cases hother
      exact hfirst
    · intro h
      have hfirst := h first rfl
      exact ⟨hfirst, fun other hother => Nat.lt_trans hfirst (hlater other hother)⟩

theorem countP_eq_succ_iff {starts : List Nat} (hsorted : starts.Pairwise (· < ·))
    {offset line : Nat} :
    starts.countP (· ≤ offset) = line + 1 ↔
      (∃ start, starts[line]? = some start ∧ start ≤ offset) ∧
        ∀ next, starts[line + 1]? = some next → offset < next := by
  induction starts generalizing line with
  | nil => simp
  | cons start starts ih =>
    obtain ⟨hlater, hrest⟩ := List.pairwise_cons.1 hsorted
    by_cases hstart : start ≤ offset
    · rw [List.countP_cons_of_pos (by simpa using hstart)]
      cases line with
      | zero => simpa [hstart] using countP_eq_zero_iff hrest
      | succ line => simpa using ih hrest
    · have hlt : offset < start := Nat.lt_of_not_le hstart
      have hzero : (start :: starts).countP (· ≤ offset) = 0 := by
        refine (countP_eq_zero_iff hsorted).2 ?_
        rintro _ ⟨⟩
        exact hlt
      rw [hzero]
      refine iff_of_false (by omega) ?_
      rintro ⟨⟨found, hfound, hle⟩, -⟩
      rcases List.mem_cons.1 (List.mem_of_getElem? hfound) with rfl | hmem
      · exact hstart hle
      · have hafter := hlater found hmem
        omega

section startsAfter
variable {line rest : List Char}

theorem startsAfter_of_not_mem (h : '\n' ∉ line) (pos : Nat) : startsAfter pos line = [] := by
  induction line generalizing pos with
  | nil => rfl
  | cons c cs ih =>
    rw [List.mem_cons, not_or] at h
    rw [startsAfter, if_neg (Ne.symm h.1), ih h.2]

theorem startsAfter_append (h : '\n' ∉ line) (pos : Nat) :
    startsAfter pos (line ++ '\n' :: rest) =
      (pos + byteSize line + 1) :: startsAfter (pos + byteSize line + 1) rest := by
  induction line generalizing pos with
  | nil => rfl
  | cons c cs ih =>
    rw [List.mem_cons, not_or] at h
    rw [List.cons_append, startsAfter, if_neg (Ne.symm h.1), ih h.2, byteSize,
      Nat.add_assoc pos]

end startsAfter

/-- A piece of the text between line feeds begins at the start of its line, and ends with the text or
before the line feed in front of the next start. -/
theorem exists_cut {cs line : List Char} {n : Nat} (h : (cs.splitOn '\n')[n]? = some line) (pos : Nat) :
    '\n' ∉ line ∧ ∃ before after, cs = before ++ line ++ after ∧
      (pos :: startsAfter pos cs)[n]? = some (pos + byteSize before) ∧
      (after = [] ∧ (startsAfter pos cs)[n]? = none ∨
        (startsAfter pos cs)[n]? = some (pos + byteSize before + byteSize line + 1)) := by
  induction n generalizing cs pos with
  | zero =>
    by_cases hfeed : '\n' ∈ cs
    · obtain ⟨first, rest, rfl, hfirst⟩ := List.eq_append_cons_of_mem hfeed
      rw [List.splitOn_append_cons_self_of_not_mem hfirst] at h
      cases h
      refine ⟨hfirst, [], '\n' :: rest, rfl, rfl, .inr ?_⟩
      rw [startsAfter_append hfirst]
      rfl
    · rw [List.splitOn_eq_singleton hfeed] at h
      cases h
      refine ⟨hfeed, [], [], by simp, rfl, .inl ⟨rfl, ?_⟩⟩
      rw [startsAfter_of_not_mem hfeed]
      rfl
  | succ n ih =>
    by_cases hfeed : '\n' ∈ cs
    · obtain ⟨first, rest, rfl, hfirst⟩ := List.eq_append_cons_of_mem hfeed
      rw [List.splitOn_append_cons_self_of_not_mem hfirst] at h
      obtain ⟨hline, before, after, rfl, hstart, hend⟩ := ih h (pos + byteSize first + 1)
      have hsize : pos + byteSize first + 1 + byteSize before =
          pos + byteSize (first ++ '\n' :: before) := by
        have hone : '\n'.utf8Size = 1 := rfl
        rw [byteSize_append, byteSize, hone]
        omega
      rw [hsize] at hstart hend
      refine ⟨hline, first ++ '\n' :: before, after, by simp, ?_, ?_⟩
      · rwa [startsAfter_append hfirst]
      · rwa [startsAfter_append hfirst]
    · rw [List.splitOn_eq_singleton hfeed] at h
      cases h

variable {cs : List Char} {offset line col : Nat}

theorem exists_span {piece : List Char} (h : (cs.splitOn '\n')[line]? = some piece) :
    ∃ before after, cs = before ++ piece ++ after ∧
      (ofChars cs).starts[line]? = some (byteSize before) ∧
      (ofChars cs).lineEnd line = byteSize before + byteSize piece := by
  obtain ⟨-, before, after, hcs, hstart, hend⟩ := exists_cut h 0
  rw [Nat.zero_add] at hstart
  refine ⟨before, after, hcs, hstart, ?_⟩
  rw [lineEnd, ofChars, List.getElem?_cons_succ]
  rcases hend with ⟨rfl, hnone⟩ | hnext
  · rw [hnone, hcs, List.append_nil, byteSize_append]
  · rw [hnext]
    simp

theorem line_spec {piece : List Char} (h : (cs.splitOn '\n')[line]? = some piece) :
    '\n' ∉ piece ∧ (ofChars cs).lineChars cs line = trimReturns piece ∧
      ∃ start, (ofChars cs).starts[line]? = some start ∧
        (ofChars cs).lineEnd line = start + byteSize piece := by
  obtain ⟨before, after, hcs, hstart, hlineEnd⟩ := exists_span h
  refine ⟨(exists_cut h 0).1, ?_, byteSize before, hstart, hlineEnd⟩
  have hslice : slice? (byteSize before) (byteSize before + byteSize piece) cs = some piece := by
    rw [hcs, slice?_append]
  rw [lineChars, hstart]
  simp only [hlineEnd, hslice, Option.getD_some]

theorem lineCount_eq (cs : List Char) : (ofChars cs).lineCount = (cs.splitOn '\n').length := by
  have hlength (pos : Nat) : (startsAfter pos cs).length + 1 = (cs.splitOn '\n').length := by
    induction cs generalizing pos with
    | nil => rfl
    | cons c cs ih =>
      rw [startsAfter, List.splitOn_cons_eq_if_modifyHead]
      by_cases hc : c = '\n'
      · simp [hc, ih]
      · simp [hc, ih]
  exact hlength 0

theorem lineCol_eq_iff (hoffset : offset ≤ byteSize cs) :
    (ofChars cs).lineCol offset = (line, col) ↔
      ∃ start, (ofChars cs).starts[line]? = some start ∧ start + col = offset ∧
        offset ≤ (ofChars cs).lineEnd line := by
  have hsorted : (ofChars cs).starts.Pairwise (· < ·) := starts_sorted 0 cs
  have hnext : (∀ next, (ofChars cs).starts[line + 1]? = some next → offset < next) ↔
      offset ≤ (ofChars cs).lineEnd line := by
    rw [lineEnd]
    cases hfound : (ofChars cs).starts[line + 1]? with
    | none => exact iff_of_true nofun hoffset
    | some next =>
      -- Only the first line begins at zero.
      have hpos : 0 < next := by
        have hzero := List.pairwise_cons.1 hsorted
        exact hzero.1 next (List.mem_of_getElem? (i := line) hfound)
      simp only [Option.some.injEq, forall_eq']
      omega
  have hcount : (ofChars cs).starts.countP (· ≤ offset) = line + 1 ↔
      (∃ start, (ofChars cs).starts[line]? = some start ∧ start ≤ offset) ∧
        ∀ next, (ofChars cs).starts[line + 1]? = some next → offset < next :=
    countP_eq_succ_iff hsorted
  have hfirst : 0 < (ofChars cs).starts.countP (· ≤ offset) := by
    rw [List.countP_pos_iff]
    exact ⟨0, List.mem_cons_self, by simp⟩
  have hlineCol : (ofChars cs).lineCol offset =
      ((ofChars cs).starts.countP (· ≤ offset) - 1,
        offset - (ofChars cs).starts.getD ((ofChars cs).starts.countP (· ≤ offset) - 1) 0) := by
    rw [lineCol, show min offset (ofChars cs).size = offset from Nat.min_eq_left hoffset]
  rw [hlineCol, Prod.mk.injEq, ← hnext]
  constructor
  · rintro ⟨rfl, rfl⟩
    obtain ⟨⟨start, hstart, hle⟩, hlater⟩ := hcount.1 (by omega)
    refine ⟨start, hstart, ?_, hlater⟩
    rw [List.getD_eq_getElem?_getD, hstart, Option.getD_some]
    omega
  · rintro ⟨start, hstart, hcol, hlater⟩
    have hline := hcount.2 ⟨⟨start, hstart, by omega⟩, hlater⟩
    rw [hline, Nat.add_sub_cancel, List.getD_eq_getElem?_getD, hstart, Option.getD_some]
    exact ⟨rfl, by omega⟩

theorem offset_eq {index : LineIndex} {start : Nat} (hstart : index.starts[line]? = some start)
    (hcol : start + col ≤ index.lineEnd line) (hword : start + col < wordSize) :
    index.offset line col = .ok (start + col) := by
  rw [offset, hstart]
  dsimp only
  rw [if_pos hword, Nat.min_eq_left hcol]

end LineIndex

end FormatGraph
