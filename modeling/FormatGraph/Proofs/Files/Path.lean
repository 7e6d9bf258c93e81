import FormatGraph.Files.Path

/-! The order of paths. Any two paths are in order one way or the other, so a list of paths can be
sorted. -/

namespace FormatGraph

namespace Component

variable {a b c : Component}

theorem lt_iff : a.lt b = true ↔ a.rank < b.rank ∨ a.rank = b.rank ∧ a.text < b.text :=
  decide_eq_true_iff

theorem lt_trans (hab : a.lt b = true) (hbc : b.lt c = true) : a.lt c = true := by
  rw [lt_iff] at hab hbc ⊢
  rcases hab with hab | ⟨hab, htext⟩
  · rcases hbc with hbc | ⟨hbc, -⟩
    · exact .inl (Nat.lt_trans hab hbc)
    · exact .inl (hbc ▸ hab)
  · rcases hbc with hbc | ⟨hbc, htext'⟩
    · exact .inl (hab ▸ hbc)
    · exact .inr ⟨hab.trans hbc, String.lt_trans htext htext'⟩

theorem eq_of_rank_eq (hrank : a.rank = b.rank) (htext : a.text = b.text) : a = b := by
  cases a with
  | name text =>
    cases b with
    | name text' => exact congrArg name htext
    | _ => cases hrank
  | _ => cases b <;> first | rfl | cases hrank

theorem lt_or_eq_or_gt (a b : Component) : a.lt b = true ∨ a = b ∨ b.lt a = true := by
  rw [lt_iff, lt_iff]
  rcases Nat.lt_trichotomy a.rank b.rank with hlt | heq | hgt
  · exact .inl (.inl hlt)
  · by_cases hlt : a.text < b.text
    · exact .inl (.inr ⟨heq, hlt⟩)
    · by_cases hgt : b.text < a.text
      · exact .inr (.inr (.inr ⟨heq.symm, hgt⟩))
      · have htext : a.text = b.text := String.le_antisymm (String.not_lt.1 hgt) (String.not_lt.1 hlt)
        exact .inr (.inl (eq_of_rank_eq heq htext))
  · exact .inr (.inr (.inl hgt))

end Component

namespace Path

theorem le_cons_cons_iff {a b : Component} {as bs : List Component} :
    le (a :: as) (b :: bs) = true ↔ a.lt b = true ∨ a = b ∧ le as bs = true := by
  rw [le, Bool.or_eq_true, Bool.and_eq_true, decide_eq_true_iff]

theorem le_trans {as bs cs : List Component} (hab : le as bs = true) (hbc : le bs cs = true) :
    le as cs = true := by
  induction as generalizing bs cs with
  | nil => rfl
  | cons a as ih =>
    cases bs with
    | nil => cases hab
    | cons b bs =>
      cases cs with
      | nil => cases hbc
      | cons c cs =>
        rw [le_cons_cons_iff] at hab hbc ⊢
        rcases hab with hab | ⟨rfl, hab⟩
        · rcases hbc with hbc | ⟨rfl, -⟩
          · exact .inl (Component.lt_trans hab hbc)
          · exact .inl hab
        · rcases hbc with hbc | ⟨rfl, hbc⟩
          · exact .inl hbc
          · exact .inr ⟨rfl, ih hab hbc⟩

theorem le_total (as bs : List Component) : le as bs = true ∨ le bs as = true := by
  induction as generalizing bs with
  | nil => exact .inl rfl
  | cons a as ih =>
    cases bs with
    | nil => exact .inr rfl
    | cons b bs =>
      rw [le_cons_cons_iff, le_cons_cons_iff]
      rcases a.lt_or_eq_or_gt b with hlt | rfl | hgt
      · exact .inl (.inl hlt)
      · rcases ih bs with hle | hle
        · exact .inl (.inr ⟨rfl, hle⟩)
        · exact .inr (.inr ⟨rfl, hle⟩)
      · exact .inr (.inl hgt)

theorem sort_perm (paths : List String) : (sort paths).Perm paths :=
  List.mergeSort_perm paths _

theorem sort_sorted (paths : List String) :
    (sort paths).Pairwise fun p q => le (components p) (components q) = true := by
  have htrans (p q r : String) (hpq : le (components p) (components q) = true)
      (hqr : le (components q) (components r) = true) : le (components p) (components r) = true :=
    le_trans hpq hqr
  have htotal (p q : String) :
      (le (components p) (components q) || le (components q) (components p)) = true := by
    rw [Bool.or_eq_true]
    exact le_total (components p) (components q)
  exact List.pairwise_mergeSort htrans htotal paths

end Path

end FormatGraph
