import FormatGraph.Proofs.Graph.Precedence

/-! Ties in the order of formats. Formats are ranked by the number of their dependencies, and in the
order in which they are first reported where that number is the same. The order departs from the
ranks only for the dependencies of formats that it has come to. -/

namespace FormatGraph

open Relation

section firsts
variable {α : Type} {xs before after : List α} {a b : α}

theorem pair_sublist_iff (hnodup : (before ++ b :: after).Nodup) :
    [a, b].Sublist (before ++ b :: after) ↔ a ∈ before := by
  have hafter : b ∉ after := (List.nodup_cons.1 hnodup.of_append_right).1
  constructor
  · intro h
    obtain ⟨left, right, hpair, hleft, hright⟩ := List.sublist_append_iff.1 h
    cases left with
    | nil =>
      rw [List.nil_append] at hpair
      subst hpair
      exact absurd (hright.tail.subset List.mem_cons_self) hafter
    | cons c left =>
      obtain ⟨rfl, -⟩ := List.cons.inj hpair
      exact hleft.subset List.mem_cons_self
  · intro ha
    exact (List.singleton_sublist.2 ha).append (List.singleton_sublist.2 List.mem_cons_self)

theorem not_pair_sublist_swap (hnodup : xs.Nodup) (h : [a, b].Sublist xs) :
    ¬ [b, a].Sublist xs := by
  have hmem : b ∈ xs := h.subset (List.mem_cons_of_mem a List.mem_cons_self)
  obtain ⟨before, after, rfl⟩ := List.append_of_mem hmem
  obtain ⟨first, middle, rfl⟩ := List.append_of_mem ((pair_sublist_iff hnodup).1 h)
  have hb : b ∉ first ++ a :: middle := fun hmem =>
    hnodup.disjoint hmem List.mem_cons_self
  rw [List.append_assoc, List.cons_append] at hnodup ⊢
  rw [pair_sublist_iff hnodup]
  exact fun hmem => hb (List.mem_append_left _ hmem)

theorem pair_sublist_or (ha : a ∈ xs) (hb : b ∈ xs) (hne : a ≠ b) :
    [a, b].Sublist xs ∨ [b, a].Sublist xs := by
  obtain ⟨before, after, rfl⟩ := List.append_of_mem hb
  rcases List.mem_append.1 ha with ha | ha
  · exact .inl ((List.singleton_sublist.2 ha).append (List.singleton_sublist.2 List.mem_cons_self))
  · have ha := (List.mem_cons.1 ha).resolve_left hne
    exact .inr ((List.singleton_sublist.2 ha).cons_cons b |>.trans (List.sublist_append_right _ _))

theorem eq_of_pair_sublist {ys : List α} (hxs : xs.Nodup) (hys : ys.Nodup)
    (hmem : ∀ a, a ∈ xs ↔ a ∈ ys)
    (h : ∀ a b, a ≠ b → [a, b].Sublist xs → [a, b].Sublist ys) : xs = ys := by
  refine @List.Perm.eq_of_pairwise α (fun a b => [a, b].Sublist ys) xs ys ?_ ?_ ?_ ?_
  · intro a b _ _ hab hba
    exact absurd hba (not_pair_sublist_swap hys hab)
  · refine List.pairwise_iff_forall_sublist.2 fun {a b} hab => h a b ?_ hab
    rintro rfl
    exact not_pair_sublist_swap hxs hab hab
  · exact List.pairwise_iff_forall_sublist.2 id
  · exact (List.perm_ext_iff_of_nodup hxs hys).2 hmem

variable [DecidableEq α]

theorem nodup_eraseDups (xs : List α) : xs.eraseDups.Nodup := by
  induction hlength : xs.length using Nat.strong_induction_on generalizing xs with
  | _ length ih =>
    subst hlength
    cases xs with
    | nil => exact List.nodup_nil
    | cons x xs =>
      rw [List.eraseDups_cons, List.nodup_cons]
      refine ⟨by simp, ih _ ?_ _ rfl⟩
      exact Nat.lt_succ_of_le (List.length_filter_le _ _)

theorem pair_sublist_eraseDups_iff (hb : b ∉ before) :
    [a, b].Sublist (before ++ b :: after).eraseDups ↔ a ∈ before := by
  obtain ⟨rest, hrest⟩ : ∃ rest,
      (before ++ b :: after).eraseDups = before.eraseDups ++ b :: rest := by
    rw [List.eraseDups_append, List.removeAll, List.filter_cons_of_pos (by simpa using hb),
      List.eraseDups_cons]
    exact ⟨_, rfl⟩
  have hnodup := nodup_eraseDups (before ++ b :: after)
  rw [hrest] at hnodup ⊢
  rw [pair_sublist_iff hnodup, List.mem_eraseDups]

section rank
variable {rank : α → Nat}

/-- A sort keeps the order of first occurrences, except where ranks say otherwise. -/
theorem pair_sublist_eraseDups_mergeSort (h : [a, b].Sublist xs.eraseDups) (hrank : rank a ≤ rank b) :
    [a, b].Sublist (xs.mergeSort fun a b => rank a ≤ rank b).eraseDups := by
  have hne : a ≠ b := by
    rintro rfl
    exact not_pair_sublist_swap (nodup_eraseDups xs) h h
  have hperm := xs.mergeSort_perm fun a b => rank a ≤ rank b
  have hmem : b ∈ xs := List.mem_eraseDups.1 (h.subset (List.mem_cons_of_mem a List.mem_cons_self))
  -- The item `a` with all occurrences of `b` after it is sorted, so it stays as it is.
  have hrun : (a :: List.replicate (xs.count b) b).Sublist
      (xs.mergeSort fun a b => rank a ≤ rank b) := by
    refine List.sublist_mergeSort rank_trans rank_total ?_ ?_
    · refine List.pairwise_cons.2 ⟨fun c hc => ?_, List.pairwise_replicate.2 (.inr (by simp))⟩
      rw [List.eq_of_mem_replicate hc, decide_eq_true_eq]
      exact hrank
    · obtain ⟨before, after, rfl, hb⟩ := List.eq_append_cons_of_mem hmem
      have ha := (pair_sublist_eraseDups_iff hb).1 h
      refine (List.singleton_sublist.2 ha).append (List.replicate_sublist_iff.2 ?_)
      rw [List.count_append, List.count_eq_zero.2 hb, Nat.zero_add]
  obtain ⟨before, after, hsplit, hb⟩ := List.eq_append_cons_of_mem (hperm.mem_iff.2 hmem)
  rw [hsplit, pair_sublist_eraseDups_iff hb]
  by_contra ha
  have hcount : xs.count b = after.count b + 1 := by
    rw [← hperm.count_eq, hsplit, List.count_append, List.count_eq_zero.2 hb, List.count_cons_self,
      Nat.zero_add]
  rw [hsplit] at hrun
  have hlater := List.Sublist.of_sublist_append_right (fun c hc => ?_) hrun
  · have hfew := List.replicate_sublist_iff.1 (List.sublist_of_cons_sublist (hlater.of_cons_of_ne hne))
    omega
  · rcases List.mem_cons.1 hc with rfl | hc
    · exact ha
    · rw [List.eq_of_mem_replicate hc]
      exact hb

theorem pair_sublist_eraseDups_of_rank_lt (ha : a ∈ xs) (hb : b ∈ xs) (hrank : rank a < rank b) :
    [a, b].Sublist (xs.mergeSort fun a b => rank a ≤ rank b).eraseDups := by
  obtain ⟨before, after, hsplit, hfirst⟩ := List.eq_append_cons_of_mem (List.mem_mergeSort.2 hb)
  have hsorted := pairwise_mergeSort_rank rank xs
  rw [hsplit, List.pairwise_append, List.pairwise_cons] at hsorted
  rw [hsplit, pair_sublist_eraseDups_iff hfirst]
  have hmem : a ∈ before ++ b :: after := hsplit ▸ List.mem_mergeSort.2 ha
  refine (List.mem_append.1 hmem).resolve_right fun hmem => ?_
  rcases List.mem_cons.1 hmem with rfl | hmem
  · exact absurd hrank (Nat.lt_irrefl _)
  · have hle := hsorted.2.1.1 a hmem
    omega

theorem eraseDups_mergeSort (rank : α → Nat) (xs : List α) :
    (xs.mergeSort fun a b => rank a ≤ rank b).eraseDups =
      xs.eraseDups.mergeSort fun a b => rank a ≤ rank b := by
  have hperm := xs.eraseDups.mergeSort_perm fun a b => rank a ≤ rank b
  have hsorted := nodup_eraseDups (xs.mergeSort fun a b => rank a ≤ rank b)
  have hnodup := hperm.nodup_iff.2 (nodup_eraseDups xs)
  refine (eq_of_pair_sublist hnodup hsorted ?_ fun a b hne hab => ?_).symm
  · intro c
    rw [List.mem_mergeSort, List.mem_eraseDups, List.mem_eraseDups, List.mem_mergeSort]
  · have hmem (c : α) (hc : c ∈ [a, b]) : c ∈ xs :=
      List.mem_eraseDups.1 (List.mem_mergeSort.1 (hab.subset hc))
    have ha := hmem a List.mem_cons_self
    have hb := hmem b (List.mem_cons_of_mem a List.mem_cons_self)
    have hrank := List.pairwise_iff_forall_sublist.1 (pairwise_mergeSort_rank rank xs.eraseDups) hab
    rcases pair_sublist_or (List.mem_eraseDups.2 ha) (List.mem_eraseDups.2 hb) hne with hfirst | hfirst
    · exact pair_sublist_eraseDups_mergeSort hfirst hrank
    · -- If `b` is the first of the two, its rank is larger, or it would be first after the sort.
      have hlt : rank a < rank b := by
        by_contra hle
        have hle' : decide (rank b ≤ rank a) = true := decide_eq_true (Nat.le_of_not_lt hle)
        exact not_pair_sublist_swap hnodup hab
          (List.pair_sublist_mergeSort rank_trans rank_total hle' hfirst)
      exact pair_sublist_eraseDups_of_rank_lt ha hb hlt

end rank

end firsts

namespace Graph

variable {graph : Graph} {formats ids : List NodeId} {format other : NodeId}

def ranked (graph : Graph) (formats : List NodeId) : List NodeId :=
  formats.eraseDups.mergeSort fun f g =>
    (graph.dependencies f).length ≤ (graph.dependencies g).length

/-- The order of formats holds on to their ranks. One that stands before another of a lower rank is
a dependency of that one, or of one with a rank that is lower still. -/
structure KeepsRanks (graph : Graph) (ranks ids : List NodeId) : Prop where
  nodup : ranks.Nodup
  mem_iff : ∀ id, id ∈ ranks ↔ graph.FormatBelow id
  departs : ∀ format other, [format, other].Sublist ranks → [other, format].Sublist ids →
    ∃ user, (user = format ∨ [user, format].Sublist ranks) ∧ TransGen graph.Requires user other
  eq_of_independent : (∀ format, graph.FormatBelow format → ∀ other, ¬ graph.DependsOn format other) →
    ids = ranks

section reported
variable (hformats : ∀ id, id ∈ formats ↔ graph.FormatBelow id)
include hformats

theorem eraseDups_byDependencies :
    (graph.byDependencies formats).eraseDups = graph.ranked formats := by
  have hfollowed (format : NodeId) (hformat : format ∈ formats) :
      graph.followed formats format = graph.dependencies format := by
    rw [followed, dependenciesAmong,
      if_pos ((contains_formats_iff hformats format).2 ((hformats format).1 hformat))]
  rw [byDependencies, eraseDups_mergeSort fun format => (graph.followed formats format).length, ranked]
  have hsorts := List.map_mergeSort (f := id) (l := formats.eraseDups)
    (r := fun f g => decide ((graph.followed formats f).length ≤ (graph.followed formats g).length))
    (s := fun f g => decide ((graph.dependencies f).length ≤ (graph.dependencies g).length))
    fun f hf g hg => by
      rw [List.mem_eraseDups] at hf hg
      rw [hfollowed f hf, hfollowed g hg]
      rfl
  rwa [List.map_id, List.map_id] at hsorts

theorem nodup_ranked : (graph.ranked formats).Nodup := by
  rw [← eraseDups_byDependencies hformats]
  exact nodup_eraseDups _

theorem mem_ranked_iff : format ∈ graph.ranked formats ↔ graph.FormatBelow format := by
  rw [ranked, List.mem_mergeSort, List.mem_eraseDups, hformats]

theorem leads_follow_iff :
    Search.Leads (graph.follow formats) format other ↔ graph.Requires format other := by
  rw [← mem_followed_iff hformats]
  constructor
  · rintro ⟨_, ⟨⟩, hother⟩
    exact hother
  · exact fun hother => ⟨_, rfl, hother⟩

theorem exists_user_of_departs (hclosed : graph.Closed) {depth : Nat} (hdepth : graph.nodes.size ≤ depth)
    (hreported : graph.reportedFormats = .ok formats) (hids : graph.formatsWithin depth = .ok ids)
    (hnodup : ids.Nodup) (hrank : [format, other].Sublist (graph.ranked formats))
    (hdeparts : [other, format].Sublist ids) :
    ∃ user, (user = format ∨ [user, format].Sublist (graph.ranked formats)) ∧
      TransGen graph.Requires user other := by
  have hswap := not_pair_sublist_swap (nodup_ranked hformats) hrank
  have hne : other ≠ format := by
    rintro rfl
    exact hswap hrank
  have hformat : format ∈ graph.byDependencies formats := by
    rw [mem_byDependencies_iff hformats, ← mem_ranked_iff hformats]
    exact hrank.subset List.mem_cons_self
  obtain ⟨before, after, hsplit, hfirst⟩ := List.eq_append_cons_of_mem hformat
  have hbefore (user : NodeId) : [user, format].Sublist (graph.ranked formats) ↔ user ∈ before := by
    rw [← eraseDups_byDependencies hformats, hsplit, pair_sublist_eraseDups_iff hfirst]
  have hroots : ∀ id ∈ (before ++ [format]) ++ after, graph.FormatBelow id := by
    rw [← List.append_cons, ← hsplit]
    exact fun id => (mem_byDependencies_iff hformats).1
  have hsearch := run_follow_returns hformats hclosed hroots hdepth
  rw [← List.append_cons, ← hsplit, ← formatsWithin_eq hreported] at hsearch
  obtain ⟨ids', hids', found, hfinds, rest, rfl⟩ := hsearch
  cases hids.symm.trans hids'
  have hfound : format ∈ found :=
    (hfinds.mem_iff format).2 ⟨format, List.mem_append_right before List.mem_cons_self, .refl⟩
  have hother : other ∈ found := by
    obtain ⟨first, last, rfl⟩ := List.append_of_mem hfound
    rw [List.append_assoc, List.cons_append] at hnodup hdeparts
    exact List.mem_append_left _ ((pair_sublist_iff hnodup).1 hdeparts)
  obtain ⟨user, huser, hreaches⟩ := (hfinds.mem_iff other).1 hother
  have hcase : user = format ∨ [user, format].Sublist (graph.ranked formats) := by
    rw [hbefore]
    exact (List.mem_append.1 huser).symm.imp_left List.mem_singleton.1
  refine ⟨user, hcase, ?_⟩
  rcases reflTransGen_iff_eq_or_transGen.1 hreaches with rfl | hreaches
  · exact absurd hcase (not_or.2 ⟨hne, hswap⟩)
  · exact TransGen.mono (p := graph.Requires) (fun _ _ => (leads_follow_iff hformats).1) _ _ hreaches

end reported

theorem keepsRanks_of_departs {ranks : List NodeId} (hnodup : ranks.Nodup)
    (hmem : ∀ id, id ∈ ranks ↔ graph.FormatBelow id) (horder : graph.DependencyOrder ids)
    (hdeparts : ∀ format other, [format, other].Sublist ranks → [other, format].Sublist ids →
      ∃ user, (user = format ∨ [user, format].Sublist ranks) ∧ TransGen graph.Requires user other) :
    graph.KeepsRanks ranks ids := by
  refine ⟨hnodup, hmem, hdeparts, fun hnone => ?_⟩
  have hsame (id : NodeId) : id ∈ ids ↔ id ∈ ranks := by
    rw [horder.mem_iff, hmem]
    refine or_iff_left ?_
    rintro ⟨format, hformat, hdepends⟩
    exact hnone format hformat id hdepends
  refine eq_of_pair_sublist horder.nodup hnodup hsame fun f g hne hfg => ?_
  have hf := (hsame f).1 (hfg.subset List.mem_cons_self)
  have hg := (hsame g).1 (hfg.subset (List.mem_cons_of_mem f List.mem_cons_self))
  refine (pair_sublist_or hf hg hne).resolve_right fun hgf => ?_
  obtain ⟨user, -, hrequires⟩ := hdeparts g f hgf hfg
  obtain ⟨next, hnext, -⟩ := TransGen.head'_iff.1 hrequires
  exact hnone user hnext.1 next hnext.2

/-- The order of formats departs from their ranks only for dependencies, for every graph without a
cycle of children below its root. -/
theorem formatsInOrder_keepsRanks (h : graph.Assembled) (hacyclic : graph.Acyclic root) :
    Returns graph.formatsInOrder fun ids =>
      ∃ formats, graph.reportedFormats = .ok formats ∧ graph.KeepsRanks (graph.ranked formats) ids := by
  have hcycle : graph.findCycle root = .ok none :=
    findCycle_eq_ok_none h.closed (hasNode_root h.closed) hacyclic
  have hlimit : graph.nodes.size ≤ graph.depthLimit := Nat.le_succ _
  obtain ⟨formats, hreported, hformats⟩ := reportedFormats_returns h.closed hcycle
  obtain ⟨ids, hids, horder⟩ := formatsWithin_returns h.closed hcycle hlimit
  refine ⟨ids, hids, formats, hreported, ?_⟩
  refine keepsRanks_of_departs (nodup_ranked hformats) (fun _ => mem_ranked_iff hformats) horder ?_
  intro format other
  exact exists_user_of_departs hformats h.closed hlimit hreported hids horder.nodup

end Graph

/-- The second of three formats depends on the third, and that one on the first, which is listed
twice. -/
def RawGraph.relayed : RawGraph where
  nodes := [
    ⟨"program", {}, [("elements", .arr [.nat 1, .nat 2, .nat 3, .nat 1])]⟩,
    ⟨"format", {}, []⟩,
    ⟨"format", {}, [("depends", .arr [.nat 4])]⟩,
    ⟨"format", {}, [("depends", .arr [.nat 5])]⟩,
    ⟨"ident_type", {}, [("base", .nat 6)]⟩,
    ⟨"ident_type", {}, [("base", .nat 7)]⟩,
    ⟨"struct_type", {}, [("base", .nat 3)]⟩,
    ⟨"struct_type", {}, [("base", .nat 1)]⟩]
  scopes := []

/-- The third format goes before the second, whose rank is lower, because the second depends on
it. -/
theorem Graph.formatsInOrder_keepsRanks_relayed :
    ∃ graph ids, RawGraph.relayed.link false = .ok graph ∧ graph.Acyclic root ∧
      graph.formatsInOrder = .ok ids ∧ graph.reportedFormats = .ok [⟨1⟩, ⟨2⟩, ⟨3⟩, ⟨1⟩] ∧
      graph.KeepsRanks [⟨1⟩, ⟨2⟩, ⟨3⟩] ids ∧ [⟨3⟩, ⟨2⟩].Sublist ids := by
  obtain ⟨graph, h, hcycle, hreported, hsorted, hsecond, hthird, hfirst⟩ :
      ∃ graph, RawGraph.relayed.link false = .ok graph ∧ graph.findCycle root = .ok none ∧
        graph.reportedFormats = .ok [⟨1⟩, ⟨2⟩, ⟨3⟩, ⟨1⟩] ∧
        ([⟨1⟩, ⟨2⟩, ⟨3⟩] : List NodeId).Pairwise (fun f g =>
          decide ((graph.dependencies f).length ≤ (graph.dependencies g).length) = true) ∧
        graph.dependencies ⟨2⟩ = [⟨3⟩] ∧ graph.dependencies ⟨3⟩ = [⟨1⟩] ∧
        graph.dependencies ⟨1⟩ = [] :=
    ⟨_, rfl, rfl, rfl, by decide, rfl, rfl, rfl⟩
  have hassembled : graph.Assembled := .raw h
  have hclosed : graph.Closed := hassembled.closed
  have hacyclic : graph.Acyclic root := acyclic_of_findCycle hclosed (hasNode_root hclosed) hcycle
  have hranked : graph.ranked [⟨1⟩, ⟨2⟩, ⟨3⟩, ⟨1⟩] = [⟨1⟩, ⟨2⟩, ⟨3⟩] :=
    List.mergeSort_of_pairwise hsorted
  obtain ⟨ids, hids, formats, hformats, hranks⟩ := formatsInOrder_keepsRanks hassembled hacyclic
  cases hreported.symm.trans hformats
  rw [hranked] at hranks
  have hbelow : graph.FormatBelow ⟨2⟩ := (hranks.mem_iff ⟨2⟩).1 (by decide)
  have hdepends : graph.DependsOn ⟨2⟩ ⟨3⟩ := mem_dependencies_iff.1 (by rw [hsecond]; decide)
  -- The third format leads to the first only, and that one leads nowhere.
  have hback : ¬ ReflTransGen graph.Requires ⟨3⟩ ⟨2⟩ := by
    intro hreaches
    rcases hreaches.cases_head with heq | ⟨next, hnext, hrest⟩
    · exact absurd heq (by decide)
    · have hmem := mem_dependencies_iff.2 hnext.2
      rw [hthird, List.mem_singleton] at hmem
      subst hmem
      rcases hrest.cases_head with heq | ⟨next, hnext, -⟩
      · exact absurd heq (by decide)
      · have hmem := mem_dependencies_iff.2 hnext.2
        rw [hfirst] at hmem
        cases hmem
  obtain ⟨ids', hids', horder⟩ := formatsWithin_returns hclosed hcycle (Nat.le_succ _)
  cases hids.symm.trans hids'
  exact ⟨graph, ids, h, hacyclic, hids, hreported, hranks, horder.before _ _ hbelow hdepends hback⟩

end FormatGraph
