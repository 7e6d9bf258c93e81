import FormatGraph.Proofs.Json.Runs

/-! What can be read as a value can be passed over. Passing over keeps a stack of open brackets
where reading recurses, and it does not look into strings and numbers as closely, but it ends at the
same place. -/

namespace FormatGraph.Reader

variable {α β σ : Type}

/-! ### Numbers -/

theorem run_skipDigits {otherwise : Reader Unit} {c : Char} {s : List Char} (hc : isDigit c) :
    (skipDigits otherwise).run (c :: s) = .ok ((), s.dropWhile isDigit) := by
  simp [skipDigits, hc]

theorem run_skipWhole {s rest digits : List Char} (h : wholeDigits.run s = .ok (digits, rest)) :
    skipWhole.run s = .ok ((), rest) := by
  cases s with
  | nil => simp [wholeDigits, fail] at h
  | cons c s =>
    by_cases hzero : c = '0'
    · subst hzero
      cases s with
      | nil =>
        obtain ⟨-, rfl⟩ : ['0'] = digits ∧ [] = rest := by simpa [wholeDigits] using h
        simp [skipWhole]
      | cons d s =>
        by_cases hd : isDigit d
        · simp [wholeDigits, hd, failNext] at h
        · obtain ⟨-, rfl⟩ : ['0'] = digits ∧ d :: s = rest := by simpa [wholeDigits, hd] using h
          simp [skipWhole, hd]
    · by_cases hc : isDigit c
      · simp only [wholeDigits, run_bind, run_peek, List.head?_cons, andThen_ok, if_neg hzero,
          if_pos hc, run_takeWhile, Except.ok.injEq, Prod.mk.injEq] at h
        obtain ⟨-, rfl⟩ := h
        simp [skipWhole, hzero, run_skipDigits hc, hc]
      · simp [wholeDigits, hzero, hc, failNext] at h

theorem run_skipFraction {s rest : List Char} {digits? : Option (List Char)}
    (h : fractionDigits?.run s = .ok (digits?, rest)) : skipFraction.run s = .ok ((), rest) := by
  cases s with
  | nil =>
    obtain ⟨-, rfl⟩ : none = digits? ∧ [] = rest := by simpa [fractionDigits?] using h
    simp [skipFraction]
  | cons c s =>
    by_cases hpoint : c = '.'
    · subst hpoint
      cases s with
      | nil => simp [fractionDigits?, failNext] at h
      | cons d s =>
        by_cases hd : isDigit d
        · obtain ⟨-, rfl⟩ : some (d :: s.takeWhile isDigit) = digits? ∧
              s.dropWhile isDigit = rest := by
            simpa [fractionDigits?, hd] using h
          simp [skipFraction, run_skipDigits hd]
        · simp [fractionDigits?, hd, failNext] at h
    · obtain ⟨-, rfl⟩ : none = digits? ∧ c :: s = rest := by
        simpa [fractionDigits?, hpoint] using h
      simp [skipFraction, hpoint]

theorem exists_of_run_peekDigit {s rest : List Char} (h : peekDigit.run s = .ok ((), rest)) :
    s = rest ∧ ∃ d ds, s = d :: ds ∧ isDigit d := by
  cases s with
  | nil => simp [peekDigit, fail] at h
  | cons d ds =>
    by_cases hd : isDigit d
    · obtain rfl : d :: ds = rest := by simpa [peekDigit, hd] using h
      exact ⟨rfl, d, ds, rfl, hd⟩
    · simp [peekDigit, hd, failNext] at h

theorem eq_of_run_exponentMinus {s rest : List Char} {negative : Bool}
    (h : exponentMinus.run s = .ok (negative, rest)) :
    s = rest ∨ s = '+' :: rest ∨ s = '-' :: rest := by
  cases s with
  | nil => simp_all [exponentMinus]
  | cons c s =>
    by_cases hplus : c = '+'
    · subst hplus
      obtain ⟨-, rfl⟩ : false = negative ∧ s = rest := by simpa [exponentMinus] using h
      exact .inr (.inl rfl)
    · by_cases hminus : c = '-'
      · subst hminus
        obtain ⟨-, rfl⟩ : true = negative ∧ s = rest := by simpa [exponentMinus] using h
        exact .inr (.inr rfl)
      · obtain ⟨-, rfl⟩ : false = negative ∧ c :: s = rest := by
          simpa [exponentMinus, hplus, hminus] using h
        exact .inl rfl

theorem run_skipExponent {s rest : List Char} {down? : Option Bool}
    (h : exponentSign?.run s = .ok (down?, rest)) :
    skipExponent.run s = .ok ((), if down?.isSome then rest.dropWhile isDigit else rest) := by
  cases s with
  | nil =>
    obtain ⟨rfl, rfl⟩ : none = down? ∧ [] = rest := by simpa [exponentSign?] using h
    simp [skipExponent]
  | cons c s =>
    by_cases hmark : c = 'e' ∨ c = 'E'
    · have hread : (do
          let negative ← exponentMinus
          peekDigit
          return some negative).run s = .ok (down?, rest) := by
        simpa [exponentSign?, hmark] using h
      simp only [run_bind_eq_ok_iff, run_pure, Except.ok.injEq, Prod.mk.injEq] at hread
      obtain ⟨negative, mid, hsign, ⟨⟩, _, hdigit, rfl, rfl⟩ := hread
      obtain ⟨rfl, d, ds, rfl, hd⟩ := exists_of_run_peekDigit hdigit
      have hs := eq_of_run_exponentMinus hsign
      have hplus : d ≠ '+' := ne_of_isDigit hd rfl
      have hminus : d ≠ '-' := ne_of_isDigit hd rfl
      rcases hs with rfl | rfl | rfl <;>
        simp [skipExponent, hmark, hplus, hminus, run_skipDigits hd, hd]
    · obtain ⟨rfl, rfl⟩ : none = down? ∧ c :: s = rest := by
        simpa [exponentSign?, hmark] using h
      simp [skipExponent, hmark]

theorem eq_of_run_orOutOfRange {number? : Option Number} {value : Number} {s rest : List Char}
    (h : (orOutOfRange number?).run s = .ok (value, rest)) : s = rest := by
  cases number? with
  | none => simp [orOutOfRange, fail] at h
  | some n => simp_all [orOutOfRange]

theorem run_skipNumber {negative : Bool} {value : Number} {s rest : List Char}
    (h : (number negative).run s = .ok (value, rest)) : skipNumber.run s = .ok ((), rest) := by
  obtain ⟨whole, afterWhole, hwhole, h⟩ := run_bind_eq_ok_iff.1 h
  obtain ⟨fraction?, afterFraction, hfraction, h⟩ := run_bind_eq_ok_iff.1 h
  obtain ⟨down?, afterSign, hsign, h⟩ := run_bind_eq_ok_iff.1 h
  have hrest : (if down?.isSome then afterSign.dropWhile isDigit else afterSign) = rest := by
    cases down? with
    | none =>
      dsimp only at h
      split at h <;> exact eq_of_run_orOutOfRange h
    | some down =>
      have hsplit : afterSign.takeWhile isDigit ++ afterSign.dropWhile isDigit = afterSign :=
        List.takeWhile_append_dropWhile
      have hdrop : afterSign.drop (afterSign.takeWhile isDigit).length =
          afterSign.dropWhile isDigit := by
        calc
          _ = (afterSign.takeWhile isDigit ++ afterSign.dropWhile isDigit).drop
              (afterSign.takeWhile isDigit).length := by rw [hsplit]
          _ = _ := List.drop_left
      simp only [run_bind, run_peekWhile, andThen_ok] at h
      split at h
      · simp only [run_bind, run_eatMany, andThen_ok, hdrop] at h
        exact eq_of_run_orOutOfRange h
      · split at h
        · simp only [run_bind, run_eatMany, andThen_ok, hdrop] at h
          exact eq_of_run_orOutOfRange h
        · cases h
  simp [skipNumber, run_skipWhole hwhole, run_skipFraction hfraction, run_skipExponent hsign, hrest]

/-! ### Strings -/

theorem eq_of_run_escapeMark {c : Char} {s rest : List Char}
    (h : (escapeMark c).run s = .ok ((), rest)) : s = c :: rest := by
  cases s with
  | nil => simp [escapeMark, fail] at h
  | cons d s =>
    by_cases hd : d = c
    · subst hd
      obtain rfl : s = rest := by simpa [escapeMark] using h
      rfl
    · simp [escapeMark, hd, failNext] at h

theorem exists_of_run_longEscape {s rest : List Char} {c : Char}
    (h : longEscape.run s = .ok (c, rest)) :
    ∃ n mid, hexQuad.run s = .ok (n, mid) ∧
      (mid = rest ∨ ∃ low m, mid = '\\' :: 'u' :: low ∧ hexQuad.run low = .ok (m, rest)) := by
  obtain ⟨n, mid, hquad, h⟩ := run_bind_eq_ok_iff.1 h
  refine ⟨n, mid, hquad, ?_⟩
  split at h
  · cases h
  · split at h
    · obtain ⟨_, t, hmark, h⟩ := run_bind_eq_ok_iff.1 h
      obtain ⟨_, low, hmark', h⟩ := run_bind_eq_ok_iff.1 h
      obtain ⟨m, t', hquad', h⟩ := run_bind_eq_ok_iff.1 h
      split at h
      · simp only [run_pure, Except.ok.injEq, Prod.mk.injEq] at h
        obtain ⟨-, rfl⟩ := h
        obtain rfl := eq_of_run_escapeMark hmark'
        obtain rfl := eq_of_run_escapeMark hmark
        exact .inr ⟨low, m, rfl, hquad'⟩
      · cases h
    · cases h
      exact .inl rfl

/-- A surrogate pair is one escape to the reader, and two where it is passed over. -/
theorem exists_of_run_escape {s rest : List Char} {c : Char} (h : escape.run s = .ok (c, rest)) :
    ∃ mid, skipEscape.run s = .ok ((), mid) ∧
      (mid = rest ∨ ∃ low m, mid = '\\' :: 'u' :: low ∧ hexQuad.run low = .ok (m, rest)) := by
  cases s with
  | nil => simp [escape, fail] at h
  | cons d s =>
    by_cases hd : d = 'u'
    · subst hd
      have hlong : longEscape.run s = .ok (c, rest) := by simpa [escape] using h
      obtain ⟨n, mid, hquad, hmid⟩ := exists_of_run_longEscape hlong
      exact ⟨mid, by simp [skipEscape, hquad], hmid⟩
    · cases hshort : shortEscape? d with
      | none => simp [escape, hshort, failNext] at h
      | some e =>
        obtain ⟨-, rfl⟩ : e = c ∧ s = rest := by simpa [escape, hd, hshort] using h
        exact ⟨s, by simp [skipEscape, hshort], .inl rfl⟩

theorem run_skipString_cons {c : Char} {s rest : List Char}
    (h : skipStringStep.run (c :: s) = .ok (.inl (), rest)) (hrest : rest <:+ s) :
    skipString.run (c :: s) = skipString.run rest :=
  iterate_of_inl h (Nat.lt_succ_of_le hrest.length_le)

theorem run_skipString_escape {s rest : List Char} (h : skipEscape.run s = .ok ((), rest)) :
    skipString.run ('\\' :: s) = skipString.run rest := by
  refine run_skipString_cons ?_ (suffix_of_run h)
  simp [skipStringStep, h]

theorem run_skipString_of_inl {done done' s mid : List Char}
    (h : (stringStep done).run s = .ok (.inl done', mid)) :
    skipString.run s = skipString.run mid := by
  cases s with
  | nil => simp [stringStep, fail] at h
  | cons c s =>
    by_cases hquote : c = '"'
    · simp [stringStep, hquote] at h
    by_cases hslash : c = '\\'
    · subst hslash
      have hescape : (do return .inl ((← escape) :: done) : Reader (List Char ⊕ List Char)).run s =
          .ok (.inl done', mid) := by simpa [stringStep] using h
      obtain ⟨d, rest, hescape, h⟩ := run_bind_eq_ok_iff.1 hescape
      cases h
      obtain ⟨between, hskip, rfl | ⟨low, m, rfl, hquad⟩⟩ := exists_of_run_escape hescape
      · exact run_skipString_escape hskip
      · have hlow : skipEscape.run ('u' :: low) = .ok ((), mid) := by simp [skipEscape, hquad]
        rw [run_skipString_escape hskip, run_skipString_escape hlow]
    · by_cases hcontrol : c.toNat < 0x20
      · simp [stringStep, hcontrol, failNext] at h
      · obtain ⟨-, rfl⟩ : c :: done = done' ∧ s = mid := by
          simpa [stringStep, hquote, hslash, hcontrol] using h
        refine run_skipString_cons ?_ (List.suffix_refl s)
        simp [skipStringStep, hcontrol]

theorem eq_of_run_stringStep_inr {done cs s rest : List Char}
    (h : (stringStep done).run s = .ok (.inr cs, rest)) : s = '"' :: rest := by
  obtain ⟨c?, t, hpeek, h⟩ := run_bind_eq_ok_iff.1 h
  cases hpeek
  cases s with
  | nil => cases h
  | cons c s =>
    dsimp only [List.head?_cons] at h
    split at h
    · cases h
    next hquote =>
      cases hquote
      cases h
      rfl
    · simp only [run_bind_eq_ok_iff, run_pure] at h
      obtain ⟨_, _, _, _, _, _, ⟨⟩⟩ := h
    · split at h
      · cases h
      · cases h

theorem run_skipString {text : String} {s rest : List Char} (h : string.run s = .ok (text, rest)) :
    skipString.run s = .ok ((), rest) := by
  obtain ⟨cs, mid, hloop, h⟩ := run_bind_eq_ok_iff.1 h
  cases h
  -- What is one step for the reader may be two where it is passed over, so the reader is followed.
  refine iterate_induction (P := fun _ s _ rest => skipString.run s = .ok ((), rest)) ?_ ?_ hloop
  · intro done s cs rest hstep
    obtain rfl := eq_of_run_stringStep_inr hstep
    exact iterate_of_inr (by simp [skipStringStep])
  · intro done s done' mid cs rest hstep _ ih
    rw [run_skipString_of_inl hstep, ih]

/-! ### Values -/

theorem run_iterate_of_progress {step : σ → Reader (σ ⊕ β)} {x : σ}
    (hstep : ∀ s y rest, (step x).run s = .ok (.inl y, rest) → rest.length < s.length)
    (s : List Char) :
    (iterate step x).run s = (step x >>= Sum.elim (iterate step) Pure.pure).run s := by
  rw [run_bind]
  cases h : (step x).run s with
  | error fault =>
    change iterateRun step x s = _
    rw [iterateRun, h]
    rfl
  | ok taken =>
    obtain ⟨outcome, rest⟩ := taken
    cases outcome with
    | inl y => exact iterate_of_inl h (hstep s y rest h)
    | inr b => exact iterate_of_inr h

theorem length_lt_of_run_eat {f : Unit → Reader α} {c : Char} {s rest : List Char} {a : α}
    (h : (eat >>= f).run (c :: s) = .ok (a, rest)) : rest.length < (c :: s).length := by
  exact Nat.lt_succ_of_le (suffix_of_run (run_of_run_eat h)).length_le

theorem length_lt_of_run_skipNumber {c : Char} (hc : isDigit c) {s rest : List Char}
    (h : skipNumber.run (c :: s) = .ok ((), rest)) : rest.length < (c :: s).length := by
  obtain ⟨_, mid, hwhole, h⟩ := run_bind_eq_ok_iff.1 h
  have hmid : mid.length < (c :: s).length := by
    by_cases hzero : c = '0'
    · subst hzero
      have hrest : (do if (← peek).any isDigit then failNext .invalidNumber : Reader Unit).run s =
          .ok ((), mid) := hwhole
      exact Nat.lt_succ_of_le (suffix_of_run hrest).length_le
    · obtain rfl : s.dropWhile isDigit = mid := by
        simpa [skipWhole, hzero, run_skipDigits hc] using hwhole
      exact Nat.lt_succ_of_le (List.dropWhile_suffix isDigit).length_le
  exact Nat.lt_of_le_of_lt (suffix_of_run h).length_le hmid

theorem length_lt_of_skipStep {state next : Skipping} {s rest : List Char}
    (h : (skipStep state).run s = .ok (.inl next, rest)) : rest.length < s.length := by
  have hsolid {c : Char} {t : List Char} (ht : s.dropWhile isBlank = c :: t)
      (hlt : rest.length < (c :: t).length) : rest.length < s.length :=
    Nat.lt_of_lt_of_le hlt (ht ▸ (List.dropWhile_suffix isBlank).length_le)
  match state with
  | .due brackets =>
    obtain ⟨c, t, ht, h⟩ := exists_of_run_peekSolid h nofun
    refine hsolid ht ?_
    split at h
    case h_1 => cases h
    case h_9 =>
      rename_i heq
      cases heq
      split at h
      next hdigit =>
        obtain ⟨_, mid, hnumber, h⟩ := run_bind_eq_ok_iff.1 h
        cases h
        exact length_lt_of_run_skipNumber hdigit hnumber
      · cases h
    all_goals exact length_lt_of_run_eat h
  | .ended [] => cases h
  | .ended (.list :: brackets) =>
    obtain ⟨c, t, ht, h⟩ := exists_of_run_peekSolid h nofun
    refine hsolid ht ?_
    split at h
    case h_1 => cases h
    case h_4 => cases h
    all_goals exact length_lt_of_run_eat h
  | .ended (.object :: brackets) =>
    obtain ⟨c, t, ht, h⟩ := exists_of_run_peekSolid h nofun
    refine hsolid ht ?_
    split at h
    case h_1 => cases h
    case h_4 => cases h
    all_goals exact length_lt_of_run_eat h

theorem run_iterate_skipStep (state : Skipping) (s : List Char) :
    (iterate skipStep state).run s =
      (skipStep state >>= Sum.elim (iterate skipStep) Pure.pure).run s :=
  run_iterate_of_progress (fun _ _ _ => length_lt_of_skipStep) s

/-- The text begins with a value: what is to pass over it goes on after it. -/
def PassesOver (s rest : List Char) : Prop :=
  ∀ brackets, (iterate skipStep (.due brackets)).run s =
    (iterate skipStep (.ended brackets)).run rest

theorem PassesOver.of_solid {s rest : List Char} (h : PassesOver (s.dropWhile isBlank) rest) :
    PassesOver s rest := by
  intro brackets
  have hstep : (skipStep (.due brackets)).run (s.dropWhile isBlank) =
      (skipStep (.due brackets)).run s := run_peekSolid_bind_dropWhile _ s
  rw [← h brackets, run_iterate_skipStep, run_iterate_skipStep, run_bind, run_bind, hstep]

theorem PassesOver.of_step {s rest : List Char}
    (h : ∀ brackets, (skipStep (.due brackets)).run s = .ok (.inl (.ended brackets), rest)) :
    PassesOver s rest := by
  intro brackets
  rw [run_iterate_skipStep, run_bind, h]
  rfl

theorem PassesOver.of_scalar {r : Reader α} {f : α → Json} {skipper : Reader Unit} {json : Json}
    {s t rest : List Char}
    (hskip : ∀ a, r.run t = .ok (a, rest) → skipper.run t = .ok ((), rest))
    (hstep : ∀ brackets, (skipStep (.due brackets)).run s =
      (do skipper; return Sum.inl (Skipping.ended brackets)).run t)
    (h : (do return f (← r)).run t = .ok (json, rest)) : PassesOver s rest := by
  obtain ⟨a, mid, hread, h⟩ := run_bind_eq_ok_iff.1 h
  cases h
  refine .of_step fun brackets => ?_
  rw [hstep, run_bind, hskip a hread]
  rfl

theorem passesOver_of_valueBy {list object : Reader Json} {json : Json} {s rest : List Char}
    (hlist : ∀ t, list.run ('[' :: t) = .ok (json, rest) → PassesOver ('[' :: t) rest)
    (hobject : ∀ t, object.run ('\x7b' :: t) = .ok (json, rest) → PassesOver ('\x7b' :: t) rest)
    (h : (valueBy list object).run s = .ok (json, rest)) : PassesOver s rest := by
  obtain ⟨c, t, ht, h⟩ := exists_of_run_peekSolid h nofun
  refine .of_solid ?_
  rw [ht]
  split at h
  next heq => cases heq
  next heq =>
    cases heq
    exact .of_scalar (fun _ hread => hread) (fun _ => rfl) (run_of_run_eat h)
  next heq =>
    cases heq
    exact .of_scalar (fun _ hread => hread) (fun _ => rfl) (run_of_run_eat h)
  next heq =>
    cases heq
    exact .of_scalar (fun _ hread => hread) (fun _ => rfl) (run_of_run_eat h)
  next heq =>
    cases heq
    exact .of_scalar (fun _ => run_skipNumber) (fun _ => rfl) (run_of_run_eat h)
  next heq =>
    cases heq
    exact .of_scalar (fun _ => run_skipString) (fun _ => rfl) (run_of_run_eat h)
  next heq =>
    cases heq
    exact hlist t h
  next heq =>
    cases heq
    exact hobject t h
  next c hn ht hf hminus hquote hlist hobject heq =>
    cases heq
    split at h
    next hdigit =>
      have hblank : isBlank c = false := isBlank_of_isDigit hdigit
      refine .of_scalar (fun _ => run_skipNumber) (fun brackets => ?_) h
      simp [skipStep, run_peekSolid_cons hblank, hdigit]
    · cases h

/-! ### Lists -/

section items
variable {item : Reader Json}
  (hitem : ∀ {s rest : List Char} {json : Json}, item.run s = .ok (json, rest) → PassesOver s rest)
include hitem

theorem iterate_skipStep_of_itemStep {done items : List Json} {s rest : List Char}
    (h : (iterate (itemStep item) done).run s = .ok (items, rest)) (brackets : List Bracket) :
    (iterate skipStep (.ended (.list :: brackets))).run s =
      (iterate skipStep (.ended brackets)).run rest := by
  refine iterate_induction (P := fun _ s _ rest =>
    (iterate skipStep (.ended (.list :: brackets))).run s =
      (iterate skipStep (.ended brackets)).run rest) ?_ ?_ h
  · intro done s items rest hstep
    obtain ⟨more, t, hmore, hstep⟩ := run_bind_eq_ok_iff.1 hstep
    cases more with
    | false =>
      cases hstep
      have hclose := of_run_nextItem?_false hmore
      rw [run_iterate_skipStep]
      simp [skipStep, run_peekSolid, hclose]
    | true =>
      obtain ⟨_, _, _, ⟨⟩⟩ := run_bind_eq_ok_iff.1 hstep
  · intro done s done' mid items rest hstep _ ih
    obtain ⟨more, t, hmore, hstep⟩ := run_bind_eq_ok_iff.1 hstep
    cases more with
    | false => cases hstep
    | true =>
      obtain ⟨json, _, hread, h⟩ := run_bind_eq_ok_iff.1 hstep
      cases h
      obtain ⟨u, hcomma, rfl⟩ := of_run_nextItem?_true hmore
      have hpass := PassesOver.of_solid (hitem hread) (.list :: brackets)
      rw [run_iterate_skipStep]
      simpa [skipStep, run_peekSolid, hcomma, hpass] using ih

theorem passesOver_of_items {items : List Json} {s rest : List Char}
    (h : (Reader.items item).run s = .ok (items, rest)) : PassesOver ('[' :: s) rest := by
  intro brackets
  obtain ⟨more, t, hmore, h⟩ := run_bind_eq_ok_iff.1 h
  rw [run_iterate_skipStep]
  cases more with
  | false =>
    cases h
    have hclose := of_run_firstItem?_false hmore
    simp [skipStep, isBlank, run_peekSolid, hclose]
  | true =>
    obtain ⟨first, mid, hread, hitems⟩ := run_bind_eq_ok_iff.1 h
    have hloop := iterate_skipStep_of_itemStep hitem hitems brackets
    obtain ⟨hsolid, c, u, rfl, hclose⟩ := of_run_firstItem?_true hmore
    rw [← hitem hread] at hloop
    simpa [skipStep, isBlank, run_peekSolid, hsolid, hclose] using hloop

end items

/-! ### Objects -/

theorem run_skipKey {s t afterKey rest : List Char} {key : String}
    (ht : s.dropWhile isBlank = '"' :: t) (hstring : string.run t = .ok (key, afterKey))
    (hcolon : colon.run afterKey = .ok ((), rest)) : skipKey.run s = .ok ((), rest) := by
  simp [skipKey, run_peekSolid, ht, run_skipString hstring, hcolon]

section members
variable {item : Reader Json}
  (hitem : ∀ {s rest : List Char} {json : Json}, item.run s = .ok (json, rest) → PassesOver s rest)
include hitem

theorem iterate_skipStep_of_memberStep {done members : Json.Object} {s rest : List Char}
    (h : (iterate (memberStep fun done key => do colon; return Json.insert key (← item) done)
      done).run s = .ok (members, rest)) (brackets : List Bracket) :
    (iterate skipStep (.ended (.object :: brackets))).run s =
      (iterate skipStep (.ended brackets)).run rest := by
  refine iterate_induction (P := fun _ s _ rest =>
    (iterate skipStep (.ended (.object :: brackets))).run s =
      (iterate skipStep (.ended brackets)).run rest) ?_ ?_ h
  · intro done s members rest hstep
    obtain ⟨key?, t, hkey, hstep⟩ := run_bind_eq_ok_iff.1 hstep
    cases key? with
    | none =>
      cases hstep
      have hclose := of_run_nextKey?_none hkey
      rw [run_iterate_skipStep]
      simp [skipStep, run_peekSolid, hclose]
    | some key =>
      obtain ⟨_, _, _, ⟨⟩⟩ := run_bind_eq_ok_iff.1 hstep
  · intro done s done' mid members rest hstep _ ih
    obtain ⟨key?, t, hkey, hstep⟩ := run_bind_eq_ok_iff.1 hstep
    cases key? with
    | none => cases hstep
    | some key =>
      obtain ⟨_, _, hmember, h⟩ := run_bind_eq_ok_iff.1 hstep
      cases h
      obtain ⟨_, afterColon, hcolon, hmember⟩ := run_bind_eq_ok_iff.1 hmember
      obtain ⟨json, _, hread, h⟩ := run_bind_eq_ok_iff.1 hmember
      cases h
      obtain ⟨u, v, hcomma, hquote, hstring⟩ := of_run_nextKey?_some hkey
      have hpass := hitem hread (.object :: brackets)
      rw [run_iterate_skipStep]
      simpa [skipStep, run_peekSolid, hcomma, run_skipKey hquote hstring hcolon, hpass] using ih

theorem passesOver_of_objectBy {members : Json.Object} {s rest : List Char}
    (h : (objectBy item).run s = .ok (members, rest)) : PassesOver ('\x7b' :: s) rest := by
  intro brackets
  obtain ⟨key?, t, hkey, h⟩ := run_bind_eq_ok_iff.1 h
  rw [run_iterate_skipStep]
  cases key? with
  | none =>
    cases h
    have hclose := of_run_firstKey?_none hkey
    simp [skipStep, isBlank, run_peekSolid, hclose]
  | some key =>
    obtain ⟨state, mid, hmember, hmembers⟩ := run_bind_eq_ok_iff.1 h
    have hloop := iterate_skipStep_of_memberStep hitem hmembers brackets
    obtain ⟨_, afterColon, hcolon, hmember⟩ := run_bind_eq_ok_iff.1 hmember
    obtain ⟨json, _, hread, h⟩ := run_bind_eq_ok_iff.1 hmember
    cases h
    obtain ⟨u, hquote, hstring⟩ := of_run_firstKey?_some hkey
    have hkey' : skipKey.run ('"' :: u) = .ok ((), afterColon) :=
      run_skipKey (by simp [isBlank]) hstring hcolon
    rw [← hitem hread] at hloop
    simpa [skipStep, isBlank, run_peekSolid, hquote, hkey'] using hloop

end members

/-- What can be read as a value can be passed over, at any depth. -/
theorem passesOver_of_value {depth : Nat} {s rest : List Char} {json : Json}
    (h : (value depth).run s = .ok (json, rest)) : PassesOver s rest := by
  induction depth generalizing s rest json with
  | zero => exact passesOver_of_valueBy (fun _ h => by cases h) (fun _ h => by cases h) h
  | succ depth ih =>
    refine passesOver_of_valueBy (fun t h => ?_) (fun t h => ?_) h
    · obtain ⟨js, _, hitems, h⟩ := run_bind_eq_ok_iff.1 (run_of_run_eat h)
      cases h
      exact passesOver_of_items ih hitems
    · obtain ⟨members, _, hmembers, h⟩ := run_bind_eq_ok_iff.1 (run_of_run_eat h)
      cases h
      exact passesOver_of_objectBy ih hmembers

theorem run_skip {depth : Nat} {s rest : List Char} {json : Json}
    (h : (value depth).run s = .ok (json, rest)) : skip.run s = .ok ((), rest) := by
  have hskip : skip.run s = (iterate skipStep (.ended [])).run rest := passesOver_of_value h []
  rw [hskip]
  exact iterate_of_inr rfl

end FormatGraph.Reader
