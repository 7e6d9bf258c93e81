import FormatGraph.Proofs.Json.Skip
import Mathlib.Data.List.Forall2

/-! Two readers of one text. They agree if, where both take it, they end at the same place with
related results; a text that only one of them takes does not matter. Lists and objects are read in
agreement if their items and members are. -/

namespace FormatGraph.Reader

variable {α β γ δ σ τ : Type}

/-- Where both readers take a text, they end at the same place, and their results are related. -/
def Agree (R : α → β → Prop) (reader : Reader α) (other : Reader β) : Prop :=
  ∀ ⦃s a rest b rest'⦄, reader.run s = .ok (a, rest) → other.run s = .ok (b, rest') →
    rest = rest' ∧ R a b

namespace Agree

variable {R : α → β → Prop} {S : γ → δ → Prop} {reader : Reader α} {other : Reader β}

theorem refl (reader : Reader α) : Agree (· = ·) reader reader := by
  intro s a rest b rest' hreader hother
  rw [hreader] at hother
  cases hother
  exact ⟨rfl, rfl⟩

theorem mono {R' : α → β → Prop} (h : Agree R reader other) (hmono : ∀ a b, R a b → R' a b) :
    Agree R' reader other := by
  intro s a rest b rest' hreader hother
  exact (h hreader hother).imp_right (hmono a b)

theorem pure {a : α} {b : β} (h : R a b) : Agree R (Pure.pure a) (Pure.pure b) := by
  rintro s _ _ _ _ ⟨⟩ ⟨⟩
  exact ⟨rfl, h⟩

theorem bind {next : α → Reader γ} {next' : β → Reader δ} (h : Agree R reader other)
    (hnext : ∀ a b, R a b → Agree S (next a) (next' b)) :
    Agree S (reader >>= next) (other >>= next') := by
  intro s c rest d rest' hreader hother
  obtain ⟨a, mid, ha, hc⟩ := run_bind_eq_ok_iff.1 hreader
  obtain ⟨b, mid', hb, hd⟩ := run_bind_eq_ok_iff.1 hother
  obtain ⟨rfl, hab⟩ := h ha hb
  exact hnext a b hab hc hd

theorem same (first : Reader α) {next : α → Reader γ} {next' : α → Reader δ}
    (hnext : ∀ a, Agree S (next a) (next' a)) : Agree S (first >>= next) (first >>= next') := by
  refine (refl first).bind ?_
  rintro a _ rfl
  exact hnext a

theorem map_left {f : α → γ} {S : γ → β → Prop} (h : Agree R reader other)
    (hmap : ∀ a b, R a b → S (f a) b) : Agree S (do return f (← reader)) other := by
  intro s c rest b rest' hreader hother
  obtain ⟨a, mid, ha, hc⟩ := run_bind_eq_ok_iff.1 hreader
  cases hc
  exact (h ha hother).imp_right (hmap a b)

theorem map_right {g : β → δ} {S : α → δ → Prop} (h : Agree R reader other)
    (hmap : ∀ a b, R a b → S a (g b)) : Agree S reader (do return g (← other)) := by
  intro s a rest d rest' hreader hother
  obtain ⟨b, mid, hb, hd⟩ := run_bind_eq_ok_iff.1 hother
  cases hd
  exact (h hreader hb).imp_right (hmap a b)

theorem map {f : α → γ} {g : β → δ} (h : Agree R reader other)
    (hmap : ∀ a b, R a b → S (f a) (g b)) :
    Agree S (do return f (← reader)) (do return g (← other)) :=
  h.bind fun a b hab => .pure (hmap a b hab)

theorem of_fails (h : ∀ s taken, reader.run s ≠ .ok taken) : Agree R reader other :=
  fun s _ _ _ _ hreader => absurd hreader (h s _)

theorem of_fails_right (h : ∀ s taken, other.run s ≠ .ok taken) : Agree R reader other :=
  fun s _ _ _ _ _ hother => absurd hother (h s _)

theorem iterate {step : σ → Reader (σ ⊕ γ)} {step' : τ → Reader (τ ⊕ δ)} {I : σ → τ → Prop}
    (hstep : ∀ x y, I x y → Agree (Sum.LiftRel I S) (step x) (step' y)) {x : σ} {y : τ}
    (hxy : I x y) : Agree S (iterate step x) (iterate step' y) := by
  intro s c rest d rest' hloop hloop'
  refine iterate_induction (P := fun x s c rest => ∀ y, I x y →
    (Reader.iterate step' y).run s = .ok (d, rest') → rest = rest' ∧ S c d) ?_ ?_ hloop y hxy hloop'
  · intro x s c rest hx y hxy hloop'
    obtain hy | ⟨y', mid', hy, -⟩ := of_run_iterate hloop'
    · obtain ⟨hrest, hresult⟩ := hstep x y hxy hx hy
      cases hresult with
      | inr hcd => exact ⟨hrest, hcd⟩
    · obtain ⟨-, ⟨⟩⟩ := hstep x y hxy hx hy
  · intro x s x' mid c rest hx _ ih y hxy hloop'
    obtain hy | ⟨y', mid', hy, hnext⟩ := of_run_iterate hloop'
    · obtain ⟨-, ⟨⟩⟩ := hstep x y hxy hx hy
    · obtain ⟨rfl, hnextxy⟩ := hstep x y hxy hx hy
      cases hnextxy with
      | inl hxy' => exact ih y' hxy' hnext

theorem items (h : Agree R reader other) :
    Agree (List.Forall₂ R) (items reader) (items other) := by
  have hstep (done : List α) (done' : List β) (hdone : List.Forall₂ R done done') :
      Agree (Sum.LiftRel (List.Forall₂ R) (List.Forall₂ R)) (itemStep reader done)
        (itemStep other done') := by
    refine .same nextItem? fun more => ?_
    cases more with
    | false => exact .pure (.inr (List.forall₂_reverse_iff.2 hdone))
    | true => exact h.map fun a b hab => .inl (.cons hab hdone)
  refine .same firstItem? fun more => ?_
  cases more with
  | false => exact .pure .nil
  | true => exact h.bind fun a b hab => .iterate hstep (.cons hab .nil)

theorem members {I : σ → τ → Prop} {member : σ → String → Reader σ}
    {member' : τ → String → Reader τ}
    (h : ∀ key x y, I x y → Agree I (member x key) (member' y key)) {x : σ} {y : τ}
    (hxy : I x y) : Agree I (members member x) (members member' y) := by
  have hstep (x : σ) (y : τ) (hxy : I x y) :
      Agree (Sum.LiftRel I I) (memberStep member x) (memberStep member' y) := by
    refine .same nextKey? fun key? => ?_
    cases key? with
    | none => exact .pure (.inr hxy)
    | some key => exact (h key x y hxy).map fun _ _ hnext => .inl hnext
  refine .same firstKey? fun key? => ?_
  cases key? with
  | none => exact .pure hxy
  | some key => exact (h key x y hxy).bind fun _ _ hnext => .iterate hstep hnext

end Agree

/-! ### Values -/

theorem failNext_ne_ok (cause : Cause) (s : List Char) (taken : α × List Char) :
    (failNext cause : Reader α).run s ≠ .ok taken := nofun

theorem valueBy_agrees {list list' object object' : Reader Json} (hlist : Agree (· = ·) list list')
    (hobject : Agree (· = ·) object object') :
    Agree (· = ·) (valueBy list object) (valueBy list' object') := by
  refine .same peekSolid fun c? => ?_
  split
  case h_7 => exact hlist
  case h_8 => exact hobject
  all_goals exact .refl _

theorem objectBy_agrees {item item' : Reader Json} (h : Agree (· = ·) item item') :
    Agree (· = ·) (objectBy item) (objectBy item') := by
  refine .members (fun key done done' hdone => ?_) rfl
  subst hdone
  exact .same colon fun _ => h.map fun _ _ heq => heq ▸ rfl

theorem value_agrees (depth depth' : Nat) : Agree (· = ·) (value depth) (value depth') := by
  induction depth generalizing depth' with
  | zero =>
    cases depth' with
    | zero => exact .refl _
    | succ depth' =>
      exact valueBy_agrees (.of_fails (failNext_ne_ok _)) (.of_fails (failNext_ne_ok _))
  | succ depth ih =>
    cases depth' with
    | zero =>
      exact valueBy_agrees (.of_fails_right (failNext_ne_ok _)) (.of_fails_right (failNext_ne_ok _))
    | succ depth' =>
      have hitems : Agree (· = ·) (items (value depth)) (items (value depth')) :=
        (ih depth').items.mono fun _ _ h => List.forall₂_eq_eq_eq ▸ h
      refine valueBy_agrees (.same eat fun _ => ?_) (.same eat fun _ => ?_)
      · exact hitems.map fun _ _ heq => heq ▸ rfl
      · exact (objectBy_agrees (ih depth')).map fun _ _ heq => heq ▸ rfl

theorem skip_agrees (depth : Nat) : Agree (fun _ _ => True) skip (value depth) := by
  intro s _ rest json rest' hskip hvalue
  rw [run_skip hvalue] at hskip
  cases hskip
  exact ⟨rfl, trivial⟩

theorem Agree.whole {R : α → β → Prop} {reader : Reader α} {other : Reader β}
    (h : Agree R reader other) : Agree R reader.whole other.whole := by
  refine h.bind fun a b hab => .same peekSolid fun c? => ?_
  cases c? with
  | none => exact .pure hab
  | some c => exact .of_fails (failNext_ne_ok _)

end FormatGraph.Reader
