import FormatGraph.Proofs.Json.Scalar
import Mathlib.Data.List.DropRight

/-! What a reader that succeeded has seen. Each lemma opens a run with a result into the runs of its
parts, and says what stood at the start of the text. -/

namespace FormatGraph.Reader

variable {α β σ : Type}

@[simp]
theorem run_failAfter (n : Nat) (cause : Cause) (s : List Char) :
    (failAfter n cause : Reader α).run s = .error ⟨cause, Text.byteSize s - n⟩ := rfl

@[simp]
theorem run_peekWhile (p : Char → Bool) (s : List Char) :
    (peekWhile p).run s = .ok (s.takeWhile p, s) := rfl

theorem run_bind_eq_ok_iff {r : Reader α} {f : α → Reader β} {s rest : List Char} {b : β} :
    (r >>= f).run s = .ok (b, rest) ↔
      ∃ a mid, r.run s = .ok (a, mid) ∧ (f a).run mid = .ok (b, rest) := by
  rw [run_bind]
  cases hr : r.run s with
  | error fault => simp [andThen]
  | ok taken =>
    obtain ⟨a, mid⟩ := taken
    constructor
    · exact fun h => ⟨a, mid, rfl, h⟩
    · rintro ⟨_, _, ⟨⟩, h⟩
      exact h

theorem suffix_of_run {r : Reader α} {s rest : List Char} {a : α} (h : r.run s = .ok (a, rest)) :
    rest <:+ s := by
  have hwithin := r.within s
  rw [h] at hwithin
  exact hwithin

theorem run_peekSolid_bind (f : Option Char → Reader α) (s : List Char) :
    (peekSolid >>= f).run s = (f (s.dropWhile isBlank).head?).run (s.dropWhile isBlank) := rfl

theorem run_peekSolid_bind_dropWhile (f : Option Char → Reader α) (s : List Char) :
    (peekSolid >>= f).run (s.dropWhile isBlank) = (peekSolid >>= f).run s := by
  rw [run_peekSolid_bind, run_peekSolid_bind, List.dropWhile_idempotent]

theorem exists_of_run_peekSolid {f : Option Char → Reader α} {s rest : List Char} {a : α}
    (h : (peekSolid >>= f).run s = .ok (a, rest)) (hnone : ∀ taken, (f none).run [] ≠ .ok taken) :
    ∃ c t, s.dropWhile isBlank = c :: t ∧ (f (some c)).run (c :: t) = .ok (a, rest) := by
  rw [run_peekSolid_bind] at h
  cases hsolid : s.dropWhile isBlank with
  | nil =>
    rw [hsolid] at h
    exact absurd h (hnone _)
  | cons c t =>
    rw [hsolid] at h
    exact ⟨c, t, rfl, h⟩

theorem iterate_induction {step : σ → Reader (σ ⊕ β)}
    {P : σ → List Char → β → List Char → Prop}
    (stop : ∀ x s b rest, (step x).run s = .ok (.inr b, rest) → P x s b rest)
    (next : ∀ x s y mid b rest, (step x).run s = .ok (.inl y, mid) → mid.length < s.length →
      P y mid b rest → P x s b rest)
    {x : σ} {s rest : List Char} {b : β} (h : (iterate step x).run s = .ok (b, rest)) :
    P x s b rest := by
  change iterateRun step x s = _ at h
  fun_induction iterateRun step x s with
  | case1 => cases h
  | case2 x s b' rest' hstep =>
    cases h
    exact stop x s b rest hstep
  | case3 x s y mid hstep hlt ih => exact next x s y mid b rest hstep hlt (ih h)
  | case4 => cases h

theorem of_run_iterate {step : σ → Reader (σ ⊕ β)} {x : σ} {s rest : List Char} {b : β}
    (h : (iterate step x).run s = .ok (b, rest)) :
    (step x).run s = .ok (.inr b, rest) ∨
      ∃ y mid, (step x).run s = .ok (.inl y, mid) ∧ (iterate step y).run mid = .ok (b, rest) := by
  change iterateRun step x s = _ at h
  rw [iterateRun] at h
  split at h
  · cases h
  next hstep =>
    cases h
    exact .inl hstep
  next y mid hstep =>
    split at h
    · exact .inr ⟨y, mid, hstep, h⟩
    · cases h

theorem run_of_run_eat {f : Unit → Reader α} {c : Char} {s : List Char}
    {outcome : Except Fault (α × List Char)} (h : (eat >>= f).run (c :: s) = outcome) :
    (f ()).run s = outcome := h

/-! ### Lists and objects -/

theorem of_run_firstItem?_false {s rest : List Char} (h : firstItem?.run s = .ok (false, rest)) :
    s.dropWhile isBlank = ']' :: rest := by
  obtain ⟨c, t, ht, h⟩ := exists_of_run_peekSolid h nofun
  split at h
  next heq => cases heq
  next heq =>
    cases heq
    cases h
    exact ht
  · cases h

theorem of_run_firstItem?_true {s rest : List Char} (h : firstItem?.run s = .ok (true, rest)) :
    s.dropWhile isBlank = rest ∧ ∃ c t, rest = c :: t ∧ c ≠ ']' := by
  obtain ⟨c, t, ht, h⟩ := exists_of_run_peekSolid h nofun
  split at h
  next heq => cases heq
  next heq =>
    cases heq
    cases h
  next d hclose heq =>
    cases heq
    cases h
    exact ⟨ht, c, t, rfl, hclose⟩

theorem of_run_nextItem?_false {s rest : List Char} (h : nextItem?.run s = .ok (false, rest)) :
    s.dropWhile isBlank = ']' :: rest := by
  obtain ⟨c, t, ht, h⟩ := exists_of_run_peekSolid h nofun
  split at h
  next heq => cases heq
  next heq =>
    cases heq
    cases h
    exact ht
  next heq =>
    cases heq
    obtain ⟨d, u, hu, h⟩ := exists_of_run_peekSolid (run_of_run_eat h) nofun
    split at h <;> cases h
  · cases h

theorem of_run_nextItem?_true {s rest : List Char} (h : nextItem?.run s = .ok (true, rest)) :
    ∃ t, s.dropWhile isBlank = ',' :: t ∧ t.dropWhile isBlank = rest := by
  obtain ⟨c, t, ht, h⟩ := exists_of_run_peekSolid h nofun
  split at h
  next heq => cases heq
  next heq =>
    cases heq
    cases h
  next heq =>
    cases heq
    obtain ⟨d, u, hu, h⟩ := exists_of_run_peekSolid (run_of_run_eat h) nofun
    refine ⟨t, ht, ?_⟩
    split at h
    · cases h
    · cases h
    · cases h
      exact hu
  · cases h

theorem of_run_firstKey?_none {s rest : List Char} (h : firstKey?.run s = .ok (none, rest)) :
    s.dropWhile isBlank = '\x7d' :: rest := by
  obtain ⟨c, t, ht, h⟩ := exists_of_run_peekSolid h nofun
  split at h
  next heq => cases heq
  next heq =>
    cases heq
    cases h
    exact ht
  · obtain ⟨_, _, _, ⟨⟩⟩ := run_bind_eq_ok_iff.1 (run_of_run_eat h)
  · cases h

theorem of_run_firstKey?_some {s rest : List Char} {key : String}
    (h : firstKey?.run s = .ok (some key, rest)) :
    ∃ t, s.dropWhile isBlank = '"' :: t ∧ string.run t = .ok (key, rest) := by
  obtain ⟨c, t, ht, h⟩ := exists_of_run_peekSolid h nofun
  split at h
  next heq => cases heq
  next heq => cases h
  next heq =>
    cases heq
    obtain ⟨_, _, hstring, h⟩ := run_bind_eq_ok_iff.1 (run_of_run_eat h)
    cases h
    exact ⟨t, ht, hstring⟩
  · cases h

theorem of_run_nextKey?_none {s rest : List Char} (h : nextKey?.run s = .ok (none, rest)) :
    s.dropWhile isBlank = '\x7d' :: rest := by
  obtain ⟨c, t, ht, h⟩ := exists_of_run_peekSolid h nofun
  split at h
  next heq => cases heq
  next heq =>
    cases heq
    cases h
    exact ht
  next heq =>
    cases heq
    obtain ⟨d, u, hu, h⟩ := exists_of_run_peekSolid (run_of_run_eat h) nofun
    split at h
    · cases h
    · obtain ⟨_, _, _, ⟨⟩⟩ := run_bind_eq_ok_iff.1 (run_of_run_eat h)
    · cases h
    · cases h
  · cases h

theorem of_run_nextKey?_some {s rest : List Char} {key : String}
    (h : nextKey?.run s = .ok (some key, rest)) :
    ∃ t u, s.dropWhile isBlank = ',' :: t ∧ t.dropWhile isBlank = '"' :: u ∧
      string.run u = .ok (key, rest) := by
  obtain ⟨c, t, ht, h⟩ := exists_of_run_peekSolid h nofun
  split at h
  next heq => cases heq
  next heq => cases h
  next heq =>
    cases heq
    obtain ⟨d, u, hu, h⟩ := exists_of_run_peekSolid (run_of_run_eat h) nofun
    split at h
    · cases h
    next heq =>
      cases heq
      obtain ⟨_, _, hstring, h⟩ := run_bind_eq_ok_iff.1 (run_of_run_eat h)
      cases h
      exact ⟨t, u, ht, hu, hstring⟩
    · cases h
    · cases h
  · cases h

end FormatGraph.Reader
