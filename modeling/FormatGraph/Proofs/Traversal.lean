import Mathlib.Data.List.Forall2

/-! Computations that may fail, and traversals of lists by them. A traversal succeeds when all its
items do, and fails with the error of the first item that does not. -/

namespace FormatGraph

variable {α β γ ε ε' σ : Type}

theorem bind_eq_ok_iff {first : Except ε α} {next : α → Except ε β} {b : β} :
    first >>= next = .ok b ↔ ∃ a, first = .ok a ∧ next a = .ok b := by
  cases first with
  | ok a => simp [bind, Except.bind]
  | error e => simp [bind, Except.bind]

theorem bind_eq_error_iff {first : Except ε α} {next : α → Except ε β} {e : ε} :
    first >>= next = .error e ↔ first = .error e ∨ ∃ a, first = .ok a ∧ next a = .error e := by
  cases first with
  | ok a => simp [bind, Except.bind]
  | error e' => simp [bind, Except.bind]

theorem map_eq_ok_iff {result : Except ε α} {g : α → β} {b : β} :
    g <$> result = .ok b ↔ ∃ a, result = .ok a ∧ g a = b := by
  cases result <;> simp [Functor.map, Except.map]

theorem map_eq_error_iff {result : Except ε α} {g : α → β} {e : ε} :
    g <$> result = .error e ↔ result = .error e := by
  cases result <;> simp [Functor.map, Except.map]

theorem map_some_eq_ok_iff {result : Except ε α} {a? : Option α} :
    some <$> result = .ok a? ↔ ∃ a, a? = some a ∧ result = .ok a := by
  rw [map_eq_ok_iff]
  exact exists_congr fun a => and_comm.trans (and_congr_left' eq_comm)

theorem mapError_eq_ok_iff {g : ε → ε'} {x : Except ε α} {a : α} :
    x.mapError g = .ok a ↔ x = .ok a := by
  cases x with
  | ok b => simp [Except.mapError]
  | error e => exact iff_of_false nofun nofun

theorem mapError_eq_error_iff {g : ε → ε'} {x : Except ε α} {e' : ε'} :
    x.mapError g = .error e' ↔ ∃ e, x = .error e ∧ g e = e' := by
  cases x with
  | ok b => simp [Except.mapError]
  | error e => simp [Except.mapError]

theorem exists_ok_iff {x : Except ε α} : (∃ a, x = .ok a) ↔ ∀ e, x ≠ .error e := by
  cases x <;> simp

def Returns (result : Except ε α) (property : α → Prop) : Prop := ∃ a, result = .ok a ∧ property a

namespace Returns

theorem pure {P : α → Prop} {a : α} (h : P a) : Returns (Pure.pure a : Except ε α) P := ⟨a, rfl, h⟩

theorem bind {P : α → Prop} {Q : β → Prop} {x : Except ε α} {f : α → Except ε β}
    (hx : Returns x P) (hf : ∀ a, P a → Returns (f a) Q) : Returns (x >>= f) Q := by
  obtain ⟨a, rfl, ha⟩ := hx
  exact hf a ha

theorem mono {P Q : α → Prop} {x : Except ε α} (hx : Returns x P) (h : ∀ a, P a → Q a) :
    Returns x Q := by
  obtain ⟨a, rfl, ha⟩ := hx
  exact ⟨a, rfl, h a ha⟩

theorem mapM {f : α → Except ε β} {P : β → Prop} {xs : List α} (h : ∀ x ∈ xs, Returns (f x) P) :
    Returns (xs.mapM f) fun ys => ∀ y ∈ ys, P y := by
  induction xs with
  | nil => exact pure nofun
  | cons x xs ih =>
    rw [List.mapM_cons]
    refine (h x List.mem_cons_self).bind fun y hy => ?_
    refine (ih fun x' hx' => h x' (List.mem_cons_of_mem _ hx')).bind fun ys hys => ?_
    exact pure (List.forall_mem_cons.2 ⟨hy, hys⟩)

theorem filterM {f : α → Except ε Bool} {xs : List α} (h : ∀ x ∈ xs, Returns (f x) fun _ => True) :
    Returns (xs.filterM f) fun ys => ys ⊆ xs := by
  -- Items that are kept are gathered in reverse, in front of those from before.
  have hgather : ∀ kept, Returns (xs.filterAuxM f kept) fun ys => ys ⊆ xs ++ kept := by
    induction xs with
    | nil => exact fun kept => pure (List.Subset.refl _)
    | cons x xs ih =>
      intro kept
      refine (h x List.mem_cons_self).bind fun keep _ => ?_
      refine (ih (fun x' hx' => h x' (List.mem_cons_of_mem _ hx')) _).mono fun ys hys y hy => ?_
      have hmem := hys hy
      cases keep <;> simp at hmem ⊢ <;> tauto
  refine (hgather []).bind fun ys hys => pure fun y hy => ?_
  simpa using hys (List.mem_reverse.1 hy)

theorem findSomeM? {f : α → Except ε (Option β)} {P : β → Prop} {xs : List α}
    (h : ∀ x ∈ xs, Returns (f x) fun b? => ∀ b ∈ b?, P b) :
    Returns (xs.findSomeM? f) fun b? => ∀ b ∈ b?, P b := by
  induction xs with
  | nil => exact pure nofun
  | cons x xs ih =>
    refine (h x List.mem_cons_self).bind fun b? hb => ?_
    cases b? with
    | some b => exact pure hb
    | none => exact ih fun x' hx' => h x' (List.mem_cons_of_mem _ hx')

section state
variable {m : StateT σ (Except ε) α} {s : σ}

theorem bindState {P : α × σ → Prop} {Q : β × σ → Prop} {f : α → StateT σ (Except ε) β}
    (hm : Returns (m s) P) (hf : ∀ a s', P (a, s') → Returns (f a s') Q) :
    Returns ((m >>= f) s) Q :=
  hm.bind fun (a, s') h => hf a s' h

theorem liftState {x : Except ε α} {P : α → Prop} (h : Returns x P) (s : σ) :
    Returns ((liftM x : StateT σ (Except ε) α) s) fun r => P r.1 ∧ r.2 = s := by
  obtain ⟨a, rfl, ha⟩ := h
  exact ⟨(a, s), rfl, ha, rfl⟩

theorem allStateM {f : α → StateT σ (Except ε) Bool} {I : σ → Prop} {xs : List α}
    (h : ∀ x ∈ xs, ∀ s, I s → Returns (f x s) fun r => I r.2) {s : σ} (hs : I s) :
    Returns (xs.allM f s) fun r => I r.2 := by
  induction xs generalizing s with
  | nil => exact pure hs
  | cons x xs ih =>
    refine bindState (h x List.mem_cons_self s hs) fun b s' hs' => ?_
    cases b with
    | true => exact ih (fun x' hx' => h x' (List.mem_cons_of_mem _ hx')) hs'
    | false => exact pure hs'

theorem allStateM_eq_true {f : α → StateT σ (Except ε) Bool} {xs : List α}
    (h : ∀ x ∈ xs, ∀ s, Returns (f x s) fun r => r.1 = true) (s : σ) :
    Returns (xs.allM f s) fun r => r.1 = true := by
  induction xs generalizing s with
  | nil => exact pure rfl
  | cons x xs ih =>
    refine bindState (h x List.mem_cons_self s) fun b s' hb => ?_
    subst hb
    exact ih (fun x' hx' => h x' (List.mem_cons_of_mem _ hx')) s'

end state

end Returns

def FailsWith (result : Except ε α) (property : ε → Prop) : Prop :=
  ∀ e, result = .error e → property e

namespace FailsWith

variable {P Q : ε → Prop}

theorem ok (a : α) : FailsWith (.ok a : Except ε α) P := nofun

theorem error {e : ε} (h : P e) : FailsWith (.error e : Except ε α) P := by
  rintro _ ⟨⟩
  exact h

theorem mono {x : Except ε α} (hx : FailsWith x P) (h : ∀ e, P e → Q e) : FailsWith x Q :=
  fun e he => h e (hx e he)

theorem bind {x : Except ε α} {f : α → Except ε β} (hx : FailsWith x P)
    (hf : ∀ a, FailsWith (f a) P) : FailsWith (x >>= f) P := by
  intro e he
  rcases bind_eq_error_iff.1 he with he | ⟨a, -, he⟩
  · exact hx e he
  · exact hf a e he

theorem map {x : Except ε α} (hx : FailsWith x P) (g : α → β) : FailsWith (x.map g) P :=
  fun e he => hx e (map_eq_error_iff.1 he)

theorem mapM {f : α → Except ε β} {xs : List α} (h : ∀ x ∈ xs, FailsWith (f x) P) :
    FailsWith (xs.mapM f) P := by
  induction xs with
  | nil => exact ok []
  | cons x xs ih =>
    rw [List.mapM_cons]
    refine (h x List.mem_cons_self).bind fun y => ?_
    exact (ih fun x' hx' => h x' (List.mem_cons_of_mem x hx')).bind fun ys => ok (y :: ys)

theorem foldlM {f : β → α → Except ε β} {xs : List α} (h : ∀ x ∈ xs, ∀ b, FailsWith (f b x) P)
    (b : β) : FailsWith (xs.foldlM f b) P := by
  induction xs generalizing b with
  | nil => exact ok b
  | cons x xs ih =>
    rw [List.foldlM_cons]
    exact (h x List.mem_cons_self b).bind (ih fun x' hx' => h x' (List.mem_cons_of_mem x hx'))

end FailsWith

theorem bindState_eq_error {m : StateT σ (Except ε) α} {f : α → StateT σ (Except ε) β} {s : σ} {e : ε}
    (h : m s = .error e ∨ ∃ a s', m s = .ok (a, s') ∧ f a s' = .error e) :
    (m >>= f) s = .error e := by
  refine bind_eq_error_iff.2 (h.imp_right ?_)
  rintro ⟨a, s', hm, hf⟩
  exact ⟨(a, s'), hm, hf⟩

theorem allStateM_eq_error {f : α → StateT σ (Except ε) Bool} {e : ε} {xs : List α}
    (h : ∀ x ∈ xs, ∀ s, f x s = .error e ∨ Returns (f x s) fun r => r.1 = true)
    (hfails : ∃ x ∈ xs, ∀ s, f x s = .error e) (s : σ) : xs.allM f s = .error e := by
  induction xs generalizing s with
  | nil =>
    obtain ⟨x, hx, -⟩ := hfails
    cases hx
  | cons x xs ih =>
    refine bindState_eq_error ?_
    rcases h x List.mem_cons_self s with herror | ⟨⟨b, s'⟩, hok, hb⟩
    · exact .inl herror
    · refine .inr ⟨b, s', hok, ?_⟩
      cases hb
      refine ih (fun x' hx' => h x' (List.mem_cons_of_mem _ hx')) ?_ s'
      obtain ⟨x', hx', hfail⟩ := hfails
      rcases List.mem_cons.1 hx' with rfl | hx'
      · cases hok.symm.trans (hfail s)
      · exact ⟨x', hx', hfail⟩

inductive First (fails : α → ε → Prop) : List α → ε → Prop where
  | here {item items error} : fails item error → First fails (item :: items) error
  | later {item items error} : (∀ e, ¬ fails item e) → First fails items error →
      First fails (item :: items) error

section First
variable {P : α → ε → Prop} {e : ε}

theorem not_first_nil : ¬ First P [] e := nofun

theorem first_cons {x : α} {xs : List α} :
    First P (x :: xs) e ↔ P x e ∨ (∀ e, ¬ P x e) ∧ First P xs e := by
  constructor
  · rintro (h | ⟨hx, h⟩)
    · exact .inl h
    · exact .inr ⟨hx, h⟩
  · rintro (h | ⟨hx, h⟩)
    · exact .here h
    · exact .later hx h

theorem First.exists_mem {xs : List α} (h : First P xs e) : ∃ x ∈ xs, P x e := by
  induction h with
  | here h => exact ⟨_, List.mem_cons_self, h⟩
  | later _ _ ih =>
    obtain ⟨x, hx, h⟩ := ih
    exact ⟨x, List.mem_cons_of_mem _ hx, h⟩

theorem forall_not_first {xs : List α} : (∀ e, ¬ First P xs e) ↔ ∀ x ∈ xs, ∀ e, ¬ P x e := by
  constructor
  · intro h
    induction xs with
    | nil => nofun
    | cons x xs ih =>
      have hx : ∀ e, ¬ P x e := fun e hp => h e (.here hp)
      have hxs := ih fun e hp => h e (.later hx hp)
      exact List.forall_mem_cons.2 ⟨hx, hxs⟩
  · intro h e he
    obtain ⟨x, hx, hp⟩ := he.exists_mem
    exact h x hx e hp

theorem first_append {xs ys : List α} :
    First P (xs ++ ys) e ↔ First P xs e ∨ (∀ x ∈ xs, ∀ e, ¬ P x e) ∧ First P ys e := by
  induction xs with
  | nil => simp [not_first_nil]
  | cons x xs ih =>
    rw [List.cons_append, first_cons, first_cons, ih, List.forall_mem_cons]
    tauto

theorem first_iff_getElem? {xs : List α} :
    First P xs e ↔ ∃ (i : Nat) (x : α), xs[i]? = some x ∧ P x e ∧
      ∀ j < i, ∀ y, xs[j]? = some y → ∀ e, ¬ P y e := by
  induction xs with
  | nil =>
    refine iff_of_false not_first_nil ?_
    rintro ⟨i, x, hx, -⟩
    cases hx
  | cons x xs ih =>
    rw [first_cons, ih]
    constructor
    · rintro (hx | ⟨hx, i, y, hy, hp, hbefore⟩)
      · exact ⟨0, x, rfl, hx, nofun⟩
      · refine ⟨i + 1, y, hy, hp, fun j hj z hz => ?_⟩
        cases j with
        | zero =>
          cases hz
          exact hx
        | succ j => exact hbefore j (by omega) z hz
    · rintro ⟨i, y, hy, hp, hbefore⟩
      cases i with
      | zero =>
        cases hy
        exact .inl hp
      | succ i =>
        refine .inr ⟨hbefore 0 (by omega) x rfl, i, y, hy, hp, fun j hj z hz => ?_⟩
        exact hbefore (j + 1) (by omega) z hz

theorem first_map {f : β → α} {xs : List β} :
    First P (xs.map f) e ↔ First (fun x e => P (f x) e) xs e := by
  induction xs with
  | nil => exact iff_of_false not_first_nil not_first_nil
  | cons x xs ih => rw [List.map_cons, first_cons, first_cons, ih]

theorem first_toList {x? : Option α} : First P x?.toList e ↔ ∃ x ∈ x?, P x e := by
  cases x? with
  | none => exact iff_of_false not_first_nil nofun
  | some x => simp [first_cons, not_first_nil]

end First

section List
variable {f : α → Except ε β}

theorem mapM_eq_ok_iff {xs : List α} {ys : List β} :
    xs.mapM f = .ok ys ↔ List.Forall₂ (fun x y => f x = .ok y) xs ys := by
  induction xs generalizing ys with
  | nil => cases ys <;> simp [pure, Except.pure]
  | cons x xs ih =>
    simp only [List.mapM_cons, bind_eq_ok_iff]
    constructor
    · rintro ⟨y, hy, zs, hzs, h⟩
      cases h
      exact .cons hy (ih.1 hzs)
    · rintro (_ | ⟨hy, hys⟩)
      exact ⟨_, hy, _, ih.2 hys, rfl⟩

theorem getElem?_of_mapM_eq_ok {xs : List α} {ys : List β}
    (h : xs.mapM f = .ok ys) (index : Nat) :
    ys[index]? = xs[index]?.bind fun x => (f x).toOption := by
  have hitems := mapM_eq_ok_iff.1 h
  clear h
  induction hitems generalizing index with
  | nil => simp
  | cons hxy _ ih =>
    cases index with
    | zero => simp [hxy, Except.toOption]
    | succ index => simpa using ih index

theorem optionMapM_eq_ok_iff {x? : Option α} {y? : Option β} :
    x?.mapM f = .ok y? ↔ Option.Rel (fun x y => f x = .ok y) x? y? := by
  cases x? with
  | none =>
    refine ⟨fun h => ?_, fun h => ?_⟩
    · cases h
      exact .none
    · cases h
      rfl
  | some x =>
    refine map_some_eq_ok_iff.trans ⟨?_, fun h => ?_⟩
    · rintro ⟨y, rfl, h⟩
      exact .some h
    · cases h with
      | some h => exact ⟨_, rfl, h⟩

theorem exists_left_of_forall₂ {R : α → β → Prop} {xs : List α} {ys : List β}
    (h : List.Forall₂ R xs ys) {y : β} (hy : y ∈ ys) : ∃ x ∈ xs, R x y := by
  induction h with
  | nil => cases hy
  | cons hxy _ ih =>
    rcases List.mem_cons.1 hy with rfl | hy
    · exact ⟨_, List.mem_cons_self, hxy⟩
    · obtain ⟨x, hx, hxy⟩ := ih hy
      exact ⟨x, List.mem_cons_of_mem _ hx, hxy⟩

theorem findSomeM?_eq_ok {g : α → Except ε (Option β)} {g' : α → Option β} {xs : List α}
    (h : ∀ x ∈ xs, g x = .ok (g' x)) : xs.findSomeM? g = .ok (xs.findSome? g') := by
  induction xs with
  | nil => rfl
  | cons x xs ih =>
    have hrest := ih fun x' hx' => h x' (List.mem_cons_of_mem x hx')
    rw [List.findSomeM?, h x List.mem_cons_self, List.findSome?_cons]
    cases g' x with
    | some b => rfl
    | none => exact hrest

theorem forM_eq_ok_iff {g : α → Except ε Unit} {xs : List α} :
    xs.forM g = .ok () ↔ ∀ x ∈ xs, g x = .ok () := by
  induction xs with
  | nil => exact iff_of_true rfl nofun
  | cons x xs ih =>
    rw [show (x :: xs).forM g = (g x >>= fun _ => xs.forM g) from rfl, bind_eq_ok_iff,
      List.forall_mem_cons, ← ih]
    exact ⟨fun ⟨_, hx, hxs⟩ => ⟨hx, hxs⟩, fun ⟨hx, hxs⟩ => ⟨(), hx, hxs⟩⟩

theorem forM_eq_error_iff {g : α → Except ε Unit} {xs : List α} {e : ε} :
    xs.forM g = .error e ↔ First (fun x e => g x = .error e) xs e := by
  induction xs with
  | nil => exact iff_of_false nofun not_first_nil
  | cons x xs ih =>
    rw [show (x :: xs).forM g = (g x >>= fun _ => xs.forM g) from rfl, bind_eq_error_iff, ih,
      first_cons, ← exists_ok_iff, exists_and_right]

theorem forM_flatMap {items : α → List β} {g : β → Except ε Unit} {xs : List α} :
    (xs.flatMap items).forM g = xs.forM fun x => (items x).forM g := by
  induction xs with
  | nil => rfl
  | cons x xs ih =>
    have happend : (items x ++ xs.flatMap items).forM g =
        (items x).forM g >>= fun _ => (xs.flatMap items).forM g := List.forM_append
    rw [List.flatMap_cons, happend, ih]
    rfl

end List

/-- The computation fails as the first of some items that fails. -/
def FailsAt (result : Except ε β) (fails : α → ε → Prop) (items : List α) : Prop :=
  ∀ e, result = .error e ↔ First fails items e

namespace FailsAt
variable {P : α → ε → Prop} {xs ys : List α}

theorem exists_ok_iff {result : Except ε β} (h : FailsAt result P xs) :
    (∃ b, result = .ok b) ↔ ∀ x ∈ xs, ∀ e, ¬ P x e := by
  rw [FormatGraph.exists_ok_iff, ← forall_not_first]
  exact forall_congr' fun e => not_congr (h e)

theorem pure (b : β) : FailsAt (Pure.pure b : Except ε β) P [] :=
  fun _ => iff_of_false nofun not_first_nil

theorem single {result : Except ε β} {x : α} (h : ∀ e, result = .error e ↔ P x e) :
    FailsAt result P [x] := by
  intro e
  rw [h e, first_cons]
  exact ⟨.inl, fun h => h.resolve_right fun h => not_first_nil h.2⟩

theorem bind {first : Except ε β} {next : β → Except ε γ} (hfirst : FailsAt first P xs)
    (hnext : ∀ b, first = .ok b → FailsAt (next b) P ys) :
    FailsAt (first >>= next) P (xs ++ ys) := by
  intro e
  rw [bind_eq_error_iff, first_append, hfirst e, ← hfirst.exists_ok_iff]
  refine or_congr_right ⟨?_, ?_⟩
  · rintro ⟨b, hb, h⟩
    exact ⟨⟨b, hb⟩, (hnext b hb e).1 h⟩
  · rintro ⟨⟨b, hb⟩, h⟩
    exact ⟨b, hb, (hnext b hb e).2 h⟩

theorem map {result : Except ε β} (h : FailsAt result P xs) (g : β → γ) :
    FailsAt (g <$> result) P xs := by
  intro e
  rw [map_eq_error_iff]
  exact h e

theorem mapM {f : γ → Except ε β} {items : γ → List α} {cs : List γ}
    (h : ∀ c ∈ cs, FailsAt (f c) P (items c)) : FailsAt (cs.mapM f) P (cs.flatMap items) := by
  induction cs with
  | nil => exact pure []
  | cons c cs ih =>
    rw [List.mapM_cons, List.flatMap_cons]
    refine (h c List.mem_cons_self).bind fun b _ => ?_
    rw [bind_pure_comp]
    exact (ih fun d hd => h d (List.mem_cons_of_mem _ hd)).map _

theorem mapM_single {f : γ → Except ε β} {item : γ → α} (h : ∀ c, FailsAt (f c) P [item c])
    (cs : List γ) : FailsAt (cs.mapM f) P (cs.map item) := by
  rw [List.map_eq_flatMap]
  exact mapM fun c _ => h c

theorem optionMapM_single {f : γ → Except ε β} {item : γ → α} (h : ∀ c, FailsAt (f c) P [item c])
    (c? : Option γ) : FailsAt (c?.mapM f) P (c?.toList.map item) := by
  cases c? with
  | none => exact pure none
  | some c => exact (h c).map some

end FailsAt

/-- The first computation fails as it is allowed to, or comes to the same as the second. -/
def AgreesUnless (allowed : ε → Prop) (result result' : Except ε α) : Prop :=
  (∃ error, allowed error ∧ result = .error error) ∨ result = result'

namespace AgreesUnless
variable {P : ε → Prop}

theorem refl (x : Except ε α) : AgreesUnless P x x := .inr rfl

theorem bind {x y : Except ε α} {f g : α → Except ε β} (h : AgreesUnless P x y)
    (hnext : ∀ a, x = .ok a → AgreesUnless P (f a) (g a)) : AgreesUnless P (x >>= f) (y >>= g) := by
  rcases h with ⟨error, hallowed, rfl⟩ | rfl
  · exact .inl ⟨error, hallowed, rfl⟩
  · cases x with
    | ok a => exact hnext a rfl
    | error error => exact .inr rfl

theorem mapM {δ : Type} {f : γ → Except ε β} {g : δ → Except ε β} {xs : List γ} {ys : List δ}
    (h : List.Forall₂ (fun x y => AgreesUnless P (f x) (g y)) xs ys) :
    AgreesUnless P (xs.mapM f) (ys.mapM g) := by
  induction h with
  | nil => exact refl _
  | cons hxy _ ih =>
    rw [List.mapM_cons, List.mapM_cons]
    exact hxy.bind fun _ _ => ih.bind fun _ _ => refl _

theorem foldlM {f g : β → α → Except ε β} {xs : List α}
    (h : ∀ b, ∀ x ∈ xs, AgreesUnless P (f b x) (g b x)) (b : β) :
    AgreesUnless P (xs.foldlM f b) (xs.foldlM g b) := by
  induction xs generalizing b with
  | nil => exact refl _
  | cons x xs ih =>
    rw [List.foldlM_cons, List.foldlM_cons]
    refine (h b x List.mem_cons_self).bind fun b' _ => ?_
    exact ih (fun b x hx => h b x (List.mem_cons_of_mem _ hx)) b'

theorem bindState {m m' : StateT σ (Except ε) α} {f g : α → StateT σ (Except ε) β} {s : σ}
    (h : AgreesUnless P (m s) (m' s)) (hnext : ∀ a s', AgreesUnless P (f a s') (g a s')) :
    AgreesUnless P ((m >>= f) s) ((m' >>= g) s) :=
  h.bind fun (a, s') _ => hnext a s'

theorem allStateM {f g : α → StateT σ (Except ε) Bool} {xs : List α}
    (h : ∀ x ∈ xs, ∀ s, AgreesUnless P (f x s) (g x s)) (s : σ) :
    AgreesUnless P (xs.allM f s) (xs.allM g s) := by
  induction xs generalizing s with
  | nil => exact refl _
  | cons x xs ih =>
    refine bindState (h x List.mem_cons_self s) fun b s' => ?_
    cases b with
    | true => exact ih (fun x hx => h x (List.mem_cons_of_mem _ hx)) s'
    | false => exact refl _

theorem eq {x y : Except ε α} (h : AgreesUnless (fun _ => False) x y) : x = y :=
  h.resolve_left fun ⟨_, hallowed, _⟩ => hallowed

theorem eq_ok {x y : Except ε α} (h : AgreesUnless P x y) {a : α} (hx : x = .ok a) : y = .ok a := by
  rcases h with ⟨error, -, herror⟩ | rfl
  · cases hx.symm.trans herror
  · exact hx

end AgreesUnless

/-- The second computation comes to the same as the first, with a state that is mapped. -/
def Mirrored {τ : Type} (f : σ → τ) (result : Except ε (α × σ)) (result' : Except ε (α × τ)) : Prop :=
  result' = Prod.map id f <$> result

namespace Mirrored
variable {τ : Type} {f : σ → τ}

theorem pure (f : σ → τ) (a : α) (s : σ) :
    Mirrored f ((Pure.pure a : StateT σ (Except ε) α) s) ((Pure.pure a : StateT τ (Except ε) α) (f s)) :=
  rfl

theorem eq_ok {x : Except ε (α × σ)} {y : Except ε (α × τ)} (h : Mirrored f x y) {a : α} {s : σ}
    (hx : x = .ok (a, s)) : y = .ok (a, f s) := by
  subst hx
  exact h

theorem bindState {m : StateT σ (Except ε) α} {m' : StateT τ (Except ε) α}
    {g : α → StateT σ (Except ε) β} {g' : α → StateT τ (Except ε) β} {s : σ} {t : τ}
    (h : Mirrored f (m s) (m' t))
    (hnext : ∀ a s', m s = .ok (a, s') → Mirrored f (g a s') (g' a (f s'))) :
    Mirrored f ((m >>= g) s) ((m' >>= g') t) := by
  change (m' t >>= fun r => g' r.1 r.2) = Prod.map id f <$> (m s >>= fun r => g r.1 r.2)
  rw [h]
  cases hm : m s with
  | ok r => exact hnext r.1 r.2 hm
  | error e => rfl

theorem allStateM {g : α → StateT σ (Except ε) Bool} {g' : α → StateT τ (Except ε) Bool}
    {xs : List α} (h : ∀ x ∈ xs, ∀ s, Mirrored f (g x s) (g' x (f s))) (s : σ) :
    Mirrored f (xs.allM g s) (xs.allM g' (f s)) := by
  induction xs generalizing s with
  | nil => exact pure f true s
  | cons x xs ih =>
    refine bindState (h x List.mem_cons_self s) fun b s' _ => ?_
    cases b with
    | true => exact ih (fun x hx => h x (List.mem_cons_of_mem _ hx)) s'
    | false => exact pure f false s'

end Mirrored

end FormatGraph
