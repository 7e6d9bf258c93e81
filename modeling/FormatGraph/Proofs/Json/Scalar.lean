import FormatGraph.Json.Parser
import FormatGraph.Json.Writer

/-! What readers make of written strings and integers. A written string is read back whatever stands
after it. An integer is read back wherever a number may end. -/

namespace FormatGraph.Reader

variable {α β σ : Type}

@[simp]
theorem run_pure (a : α) (s : List Char) : (Pure.pure a : Reader α).run s = .ok (a, s) := rfl

@[simp]
theorem run_bind (r : Reader α) (f : α → Reader β) (s : List Char) :
    (r >>= f).run s = andThen f (r.run s) := rfl

@[simp]
theorem andThen_ok (f : α → Reader β) (a : α) (s : List Char) :
    andThen f (.ok (a, s)) = (f a).run s := rfl

@[simp]
theorem run_peek (s : List Char) : peek.run s = .ok (s.head?, s) := rfl

@[simp]
theorem run_eat (s : List Char) : eat.run s = .ok ((), s.tail) := rfl

@[simp]
theorem run_takeWhile (p : Char → Bool) (s : List Char) :
    (takeWhile p).run s = .ok (s.takeWhile p, s.dropWhile p) := rfl

@[simp]
theorem run_peekMany (n : Nat) (s : List Char) : (peekMany n).run s = .ok (s.take n, s) := rfl

@[simp]
theorem run_eatMany (n : Nat) (s : List Char) : (eatMany n).run s = .ok ((), s.drop n) := rfl

theorem iterate_of_inl {step : σ → Reader (σ ⊕ β)} {x y : σ} {s rest : List Char}
    (h : (step x).run s = .ok (.inl y, rest)) (hlen : rest.length < s.length) :
    (iterate step x).run s = (iterate step y).run rest := by
  show iterateRun step x s = iterateRun step y rest
  rw [iterateRun, h]
  exact if_pos hlen

theorem iterate_of_inr {step : σ → Reader (σ ⊕ β)} {x : σ} {b : β} {s rest : List Char}
    (h : (step x).run s = .ok (.inr b, rest)) : (iterate step x).run s = .ok (b, rest) := by
  show iterateRun step x s = _
  rw [iterateRun, h]

def isBlank (c : Char) : Bool := c = ' ' || c = '\n' || c = '\r' || c = '\t'

theorem run_peekSolid (s : List Char) :
    peekSolid.run s = .ok ((s.dropWhile isBlank).head?, s.dropWhile isBlank) := rfl

theorem run_peekSolid_append {blanks : List Char} {c : Char} (hblanks : ∀ b ∈ blanks, isBlank b)
    (hc : isBlank c = false) (s : List Char) :
    peekSolid.run (blanks ++ c :: s) = .ok (some c, c :: s) := by
  have hdrop : (blanks ++ c :: s).dropWhile isBlank = c :: s := by
    rw [List.dropWhile_append_of_pos hblanks, List.dropWhile_cons_of_neg (by simp [hc])]
  rw [run_peekSolid, hdrop, List.head?_cons]

theorem run_peekSolid_cons {c : Char} (hc : isBlank c = false) (s : List Char) :
    peekSolid.run (c :: s) = .ok (some c, c :: s) := by
  have hblanks : ∀ b ∈ [], isBlank b := by simp
  exact run_peekSolid_append hblanks hc s

theorem run_letters (cs s : List Char) : (letters cs).run (cs ++ s) = .ok ((), s) := by
  induction cs with
  | nil => rfl
  | cons c cs ih => simp [letters, ih]

/-! ### Strings -/

theorem hexQuad?_control : ∀ n < 0x20,
    hexQuad? ['0', '0', Nat.digitChar (n / 16), Nat.digitChar (n % 16)] = some n := by
  decide

theorem stringStep_escapeChar (c : Char) (done s : List Char) :
    (stringStep done).run (Json.escapeChar c ++ s) = .ok (.inl (c :: done), s) := by
  unfold Json.escapeChar
  split
  -- All but the last case are short escapes.
  case h_8 =>
    split
    next hcontrol =>
      have hquad := hexQuad?_control c.toNat hcontrol
      have hlow : isLowSurrogate c.toNat = false := by simp [isLowSurrogate]; omega
      have hhigh : isHighSurrogate c.toNat = false := by simp [isHighSurrogate]; omega
      simp [stringStep, escape, longEscape, hexQuad, hquad, hlow, hhigh]
    next hcontrol =>
      simp [stringStep, hcontrol]
  all_goals simp [stringStep, escape, shortEscape?]

theorem iterate_stringStep (cs done s : List Char) :
    (iterate stringStep done).run (cs.flatMap Json.escapeChar ++ '"' :: s) =
      .ok (done.reverse ++ cs, s) := by
  induction cs generalizing done with
  | nil => exact iterate_of_inr (by simp [stringStep])
  | cons c cs ih =>
    have hstep := stringStep_escapeChar c done (cs.flatMap Json.escapeChar ++ '"' :: s)
    rw [List.flatMap_cons, List.append_assoc, iterate_of_inl hstep, ih]
    · simp
    · have hpos : 0 < (Json.escapeChar c).length := by
        unfold Json.escapeChar
        split <;> (try split) <;> simp
      simp only [List.length_append]
      omega

theorem stringChars_append (text : String) (s : List Char) :
    Json.stringChars text ++ s = '"' :: (text.toList.flatMap Json.escapeChar ++ '"' :: s) := by
  simp [Json.stringChars]

theorem run_string (text : String) (s : List Char) :
    string.run (text.toList.flatMap Json.escapeChar ++ '"' :: s) = .ok (text, s) := by
  simp [string, iterate_stringStep]

/-! ### Integers -/

def continuesNumber (c : Char) : Bool := isDigit c || c = '.' || c = 'e' || c = 'E'

def NumberEnds (s : List Char) : Prop := ∀ c ∈ s.head?, continuesNumber c = false

theorem numberEnds_cons {c : Char} (h : continuesNumber c = false) (s : List Char) :
    NumberEnds (c :: s) := by
  rintro _ ⟨⟩
  exact h

theorem isBlank_of_isDigit {c : Char} (h : isDigit c) : isBlank c = false := by
  rw [Bool.eq_false_iff]
  intro hblank
  simp only [isBlank, Bool.or_eq_true, decide_eq_true_eq] at hblank
  rcases hblank with ((rfl | rfl) | rfl) | rfl <;> cases h

theorem ne_of_isDigit {c d : Char} (hc : isDigit c) (hd : isDigit d = false) : c ≠ d := by
  rintro rfl
  rw [hd] at hc
  cases hc

theorem isDigit_of_mem_toDigits {n : Nat} {c : Char} (h : c ∈ Nat.toDigits 10 n) : isDigit c := by
  have hdigit := Nat.isDigit_of_mem_toDigits (by decide) (by decide) h
  simpa [isDigit, Char.isDigit, Char.le_def] using hdigit

theorem exists_toDigits_eq_cons (n : Nat) :
    ∃ d ds, Nat.toDigits 10 n = d :: ds ∧ isDigit d := by
  obtain ⟨d, ds, heq⟩ := List.exists_cons_of_ne_nil (Nat.toDigits_ne_nil (n := n) (b := 10))
  have hmem : d ∈ Nat.toDigits 10 n := heq ▸ List.mem_cons_self
  exact ⟨d, ds, heq, isDigit_of_mem_toDigits hmem⟩

theorem absorb_append {k m : Nat} {xs : List Char} (h : absorb k xs = (m, [])) (ys : List Char) :
    absorb k (xs ++ ys) = absorb m ys := by
  induction xs generalizing k with
  | nil =>
    cases h
    rfl
  | cons d ds ih =>
    simp only [absorb] at h
    split at h
    next hlt => simp only [List.cons_append, absorb, if_pos hlt, ih h]
    next => cases h

theorem absorb_toDigits {n : Nat} (h : n < UInt64.size) :
    absorb 0 (Nat.toDigits 10 n) = (n, []) := by
  induction n using Nat.strongRecOn with
  | ind n ih =>
    have hdigit (d : Nat) (hd : d < 10) : digitValue d.digitChar = d :=
      Nat.toNat_digitChar_sub_48_of_lt_ten hd
    rw [Nat.toDigits_eq_if (by decide)]
    split
    next hlt => simp [absorb, hdigit n hlt, h]
    next hle =>
      have hmod : n % 10 < 10 := Nat.mod_lt _ (by decide)
      have hvalue : n / 10 * 10 + n % 10 = n := Nat.div_add_mod' n 10
      rw [absorb_append (ih (n / 10) (by omega) (by omega))]
      simp only [absorb, hdigit _ hmod, hvalue, if_pos h]

theorem head?_toDigits_ne_zero {n : Nat} (h : 0 < n) :
    (Nat.toDigits 10 n).head? ≠ some '0' := by
  induction n using Nat.strongRecOn with
  | ind n ih =>
    rw [Nat.toDigits_eq_if (by decide)]
    split
    next =>
      simp only [List.head?_cons, ne_eq, Option.some.injEq, Nat.digitChar_eq_zero]
      omega
    next hle =>
      obtain ⟨d, ds, heq, -⟩ := exists_toDigits_eq_cons (n / 10)
      have hhead := ih (n / 10) (by omega) (by omega)
      rw [heq] at hhead ⊢
      exact hhead

theorem NumberEnds.isDigit {s : List Char} (h : NumberEnds s) :
    ∀ c ∈ s.head?, isDigit c = false := by
  intro c hc
  have hends := h c hc
  simp only [continuesNumber, Bool.or_eq_false_iff] at hends
  exact hends.1.1.1

theorem run_takeWhile_isDigit {ds s : List Char} (hds : ∀ c ∈ ds, isDigit c) (hs : NumberEnds s) :
    (takeWhile isDigit).run (ds ++ s) = .ok (ds, s) := by
  rw [run_takeWhile, List.takeWhile_append_of_pos hds, List.dropWhile_append_of_pos hds]
  cases s with
  | nil => simp
  | cons c s => simp [hs.isDigit c rfl]

theorem run_wholeDigits (n : Nat) {s : List Char} (hs : NumberEnds s) :
    wholeDigits.run (Nat.toDigits 10 n ++ s) = .ok (Nat.toDigits 10 n, s) := by
  rcases Nat.eq_zero_or_pos n with rfl | hpos
  · cases s with
    | nil => simp [wholeDigits]
    | cons c s => simp [wholeDigits, hs.isDigit c rfl]
  · have htake := run_takeWhile_isDigit (fun c hc => isDigit_of_mem_toDigits (n := n) hc) hs
    have hhead := head?_toDigits_ne_zero hpos
    obtain ⟨d, ds, heq, hd⟩ := exists_toDigits_eq_cons n
    rw [heq] at hhead htake ⊢
    have hzero : d ≠ '0' := by simpa using hhead
    rw [List.cons_append] at htake ⊢
    simp only [wholeDigits, run_bind, run_peek, andThen_ok, List.head?_cons, if_neg hzero, hd,
      if_true, htake]

theorem run_fractionDigits? {s : List Char} (hs : NumberEnds s) :
    fractionDigits?.run s = .ok (none, s) := by
  cases s with
  | nil => rfl
  | cons c s =>
    have hc : c ≠ '.' := by
      have := hs c rfl
      simp_all [continuesNumber]
    simp [fractionDigits?, hc]

theorem run_exponentSign? {s : List Char} (hs : NumberEnds s) :
    exponentSign?.run s = .ok (none, s) := by
  cases s with
  | nil => rfl
  | cons c s =>
    have hc : c ≠ 'e' ∧ c ≠ 'E' := by
      have := hs c rfl
      simp_all [continuesNumber]
    simp [exponentSign?, hc]

theorem run_number {negative : Bool} {n : Nat} {value : Number} {s : List Char} (hs : NumberEnds s)
    (h : integerOf? negative (Nat.toDigits 10 n) = some value) :
    (number negative).run (Nat.toDigits 10 n ++ s) = .ok (value, s) := by
  simp [number, run_wholeDigits n hs, run_fractionDigits? hs, run_exponentSign? hs, h, orOutOfRange]

theorem integerOf?_natural {n : Nat} (h : n < UInt64.size) :
    integerOf? false (Nat.toDigits 10 n) = some (.int n) := by
  simp [integerOf?, absorb_toDigits h]

theorem integerOf?_negative {n : Nat} (hpos : 0 < n) (h : n ≤ UInt64.size / 2) :
    integerOf? true (Nat.toDigits 10 n) = some (.int (-n)) := by
  simp [integerOf?, absorb_toDigits (Nat.lt_of_le_of_lt h (by decide)), hpos, h]

end FormatGraph.Reader
