import FormatGraph.Text.Cut
import FormatGraph.Text.Quoted
import Mathlib.Data.List.Basic
import Mathlib.Data.List.Infix
import Mathlib.Data.Nat.Basic

/-! Where a pattern occurs in a text. A text is cut at the last occurrence, if there is one. A
pattern of plain characters that begins with a space occurs in a quoted text where it occurs in the
text itself. -/

namespace FormatGraph.Text

variable {pattern before cs ds : List Char} {c : Char}

theorem beforeLast?_eq_none_iff : beforeLast? pattern cs = none ↔ ¬ pattern <:+: cs := by
  induction cs with
  | nil =>
    rw [beforeLast?, List.infix_nil]
    split_ifs with h
    · simpa using h
    · simpa using h
  | cons c cs ih =>
    rw [beforeLast?, List.infix_cons_iff]
    cases hrest : beforeLast? pattern cs with
    | none =>
      rw [or_iff_left (ih.1 hrest), ← List.isPrefixOf_iff_prefix]
      simp
    | some before =>
      have hoccurs : pattern <:+: cs := by
        by_contra hnot
        cases hrest.symm.trans (ih.2 hnot)
      simp [hoccurs]

theorem eq_append_of_beforeLast? (hpattern : pattern ≠ [])
    (h : beforeLast? pattern cs = some before) :
    ∃ after, cs = before ++ pattern ++ after ∧ ¬ pattern <:+: (pattern ++ after).tail := by
  induction cs generalizing before with
  | nil =>
    rw [beforeLast?, if_neg (by simpa using hpattern)] at h
    cases h
  | cons c cs ih =>
    rw [beforeLast?] at h
    cases hrest : beforeLast? pattern cs with
    | some later =>
      rw [hrest] at h
      cases h
      obtain ⟨after, rfl, hlast⟩ := ih hrest
      exact ⟨after, rfl, hlast⟩
    | none =>
      simp only [hrest] at h
      split_ifs at h with hstarts
      cases h
      obtain ⟨after, hafter⟩ := List.isPrefixOf_iff_prefix.1 hstarts
      refine ⟨after, hafter.symm, ?_⟩
      rw [hafter, List.tail_cons]
      exact beforeLast?_eq_none_iff.1 hrest

theorem beforeLast?_append (h : beforeLast? pattern ds = some before) (cs : List Char) :
    beforeLast? pattern (cs ++ ds) = some (cs ++ before) := by
  induction cs with
  | nil => exact h
  | cons c cs ih => rw [List.cons_append, beforeLast?, ih, List.cons_append]

theorem beforeLast?_append_self (hpattern : pattern ≠ [])
    (h : ¬ pattern <:+: (pattern ++ ds).tail) (cs : List Char) :
    beforeLast? pattern (cs ++ (pattern ++ ds)) = some cs := by
  obtain ⟨c, rest, rfl⟩ := List.exists_cons_of_ne_nil hpattern
  have hstart : beforeLast? (c :: rest) (c :: rest ++ ds) = some [] := by
    rw [List.cons_append, List.tail_cons] at h
    rw [List.cons_append, beforeLast?, beforeLast?_eq_none_iff.2 h]
    simp
  have happend := beforeLast?_append hstart cs
  rwa [List.append_nil] at happend

theorem prefix_of_prefix_append_cons (hc : c ∉ pattern) (h : pattern <+: cs ++ c :: ds) :
    pattern <+: cs := by
  have hstarts : cs ++ [c] <+: cs ++ c :: ds := by
    rw [List.append_cons cs c ds]
    exact List.prefix_append _ _
  have hmem : c ∈ cs ++ [c] := List.mem_append_right cs List.mem_cons_self
  rcases List.prefix_or_prefix_of_prefix h hstarts with hshort | hlong
  · refine (List.prefix_concat_iff.1 hshort).resolve_left ?_
    rintro rfl
    exact hc hmem
  · exact absurd (hlong.subset hmem) hc

theorem infix_append_cons_iff (hc : c ∉ pattern) :
    pattern <:+: cs ++ c :: ds ↔ pattern <:+: cs ∨ pattern <:+: ds := by
  constructor
  · induction cs with
    | nil =>
      rw [List.nil_append, List.infix_cons_iff]
      rintro (hstarts | hoccurs)
      · have hnil : pattern <+: [] := prefix_of_prefix_append_cons hc hstarts
        exact .inl hnil.isInfix
      · exact .inr hoccurs
    | cons d cs ih =>
      rw [List.cons_append, List.infix_cons_iff]
      rintro (hstarts | hoccurs)
      · have hshort : pattern <+: d :: cs := prefix_of_prefix_append_cons hc hstarts
        exact .inl hshort.isInfix
      · exact (ih hoccurs).imp_left List.infix_cons
  · rintro (hoccurs | hoccurs)
    · exact List.infix_append_of_infix_left hoccurs
    · exact List.infix_append_of_infix_right (List.infix_cons hoccurs)

theorem infix_delimited_iff (hc : c ∉ pattern) (hbefore : ¬ pattern <:+: before) :
    pattern <:+: before ++ c :: (cs ++ c :: ds) ↔ pattern <:+: cs ∨ pattern <:+: ds := by
  rw [infix_append_cons_iff hc, or_iff_right hbefore, infix_append_cons_iff hc]

theorem infix_append_iff_of_head (hc : c ∉ cs) :
    c :: pattern <:+: cs ++ ds ↔ c :: pattern <:+: ds := by
  induction cs with
  | nil => rfl
  | cons d cs ih =>
    rw [List.mem_cons, not_or] at hc
    rw [List.cons_append, List.infix_cons_iff, ih hc.2]
    exact or_iff_right fun hstarts => hc.1 (List.cons_prefix_cons.1 hstarts).1

theorem space_not_mem_toDigits {base : Nat} (hbase : 1 < base) (hle : base ≤ 16) (n : Nat) :
    ' ' ∉ Nat.toDigits base n := by
  have hdigit : ∀ d < 16, ' ' ≠ Nat.digitChar d := by decide
  induction n using Nat.strong_induction_on with
  | _ n ih =>
    rw [Nat.toDigits_eq_if hbase]
    split_ifs with hlt
    · rw [List.mem_singleton]
      exact hdigit n (by omega)
    · have hsmaller : n / base < n := Nat.div_lt_self (by omega) hbase
      have hlast : n % base < base := Nat.mod_lt n (by omega)
      rw [List.mem_append, List.mem_singleton, not_or]
      exact ⟨ih (n / base) hsmaller, hdigit (n % base) (by omega)⟩

theorem quoteChar_eq_or (c : Char) :
    quoteChar c = [c] ∨ ∃ rest, quoteChar c = '\\' :: rest ∧ ' ' ∉ rest := by
  unfold quoteChar
  split
  case h_7 =>
    split
    · refine .inr ⟨_, rfl, ?_⟩
      have hdigits : ' ' ∉ Nat.toDigits 16 c.toNat :=
        space_not_mem_toDigits (by decide) (by decide) c.toNat
      simpa [hexDigits] using hdigits
    · exact .inl rfl
  all_goals exact .inr ⟨_, rfl, by decide⟩

theorem quoteChar_eq_self (hlow : 0x20 ≤ c.toNat) (hhigh : c.toNat < 0x7f) (hquote : c ≠ '"')
    (hslash : c ≠ '\\') : quoteChar c = [c] := by
  have hshown : ¬ isHidden c = true := by
    rw [isHidden, if_pos hhigh, decide_eq_true_eq]
    exact Nat.not_lt.2 hlow
  unfold quoteChar
  split
  case h_7 => exact if_neg hshown
  all_goals contradiction

theorem ne_of_quoteChar_eq {a : Char} {rest : List Char} (ha : quoteChar a = [a])
    (hc : quoteChar c = '\\' :: rest) : a ≠ '\\' ∧ a ≠ c := by
  have hslash : a ≠ '\\' := by
    rintro rfl
    exact absurd ha (by decide)
  refine ⟨hslash, ?_⟩
  rintro rfl
  exact hslash (List.cons.inj (ha.symm.trans hc)).1

theorem prefix_quoted_iff (hplain : ∀ c ∈ pattern, quoteChar c = [c]) :
    pattern <+: cs.flatMap quoteChar ↔ pattern <+: cs := by
  induction pattern generalizing cs with
  | nil => exact iff_of_true List.nil_prefix List.nil_prefix
  | cons a pattern ih =>
    obtain ⟨ha, hrest⟩ := List.forall_mem_cons.1 hplain
    cases cs with
    | nil => rfl
    | cons c cs =>
      rw [List.flatMap_cons]
      rcases quoteChar_eq_or c with hself | ⟨rest, hescape, -⟩
      · rw [hself, List.singleton_append, List.cons_prefix_cons, List.cons_prefix_cons, ih hrest]
      · obtain ⟨hslash, hne⟩ := ne_of_quoteChar_eq ha hescape
        rw [hescape, List.cons_append, List.cons_prefix_cons, List.cons_prefix_cons]
        exact iff_of_false (fun h => hslash h.1) fun h => hne h.1

/-- Quoting a text hides no pattern of plain characters that begins with a space, and makes none. -/
theorem infix_quoted_iff (hplain : ∀ c ∈ ' ' :: pattern, quoteChar c = [c]) :
    ' ' :: pattern <:+: cs.flatMap quoteChar ↔ ' ' :: pattern <:+: cs := by
  induction cs with
  | nil => rfl
  | cons c cs ih =>
    rw [List.flatMap_cons]
    rcases quoteChar_eq_or c with hself | ⟨rest, hescape, hrest⟩
    · have hstarts : ' ' :: pattern <+: (c :: cs).flatMap quoteChar ↔ ' ' :: pattern <+: c :: cs :=
        prefix_quoted_iff hplain
      rw [List.flatMap_cons, hself, List.singleton_append] at hstarts
      rw [hself, List.singleton_append, List.infix_cons_iff, List.infix_cons_iff, hstarts, ih]
    · -- There is no space in the escape, and the character that it stands for is not a space.
      have hspace : ' ' ∉ '\\' :: rest := List.not_mem_cons_of_ne_of_not_mem (by decide) hrest
      have hne := (ne_of_quoteChar_eq (hplain ' ' List.mem_cons_self) hescape).2
      rw [hescape, infix_append_iff_of_head hspace, ih, List.infix_cons_iff]
      exact (or_iff_right fun hstarts => hne (List.cons_prefix_cons.1 hstarts).1).symm

end FormatGraph.Text
