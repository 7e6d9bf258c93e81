import FormatGraph.Proofs.Graph.Order

/-! What stands before a format that is listed only because another one depends on it. Its own
dependencies are not followed, so they need not come first. Those that are below the root and depend
on nothing come first all the same, because of their place in the sort. -/

namespace FormatGraph

section rank
variable {α : Type} {rank : α → Nat}

theorem rank_trans (a b c : α) (hab : decide (rank a ≤ rank b) = true)
    (hbc : decide (rank b ≤ rank c) = true) : decide (rank a ≤ rank c) = true := by
  rw [decide_eq_true_eq] at hab hbc ⊢
  exact hab.trans hbc

theorem rank_total (a b : α) : (decide (rank a ≤ rank b) || decide (rank b ≤ rank a)) = true := by
  rw [Bool.or_eq_true, decide_eq_true_eq, decide_eq_true_eq]
  exact Nat.le_total _ _

theorem pairwise_mergeSort_rank (rank : α → Nat) (xs : List α) :
    (xs.mergeSort fun a b => rank a ≤ rank b).Pairwise fun a b => rank a ≤ rank b :=
  List.Pairwise.imp of_decide_eq_true (List.pairwise_mergeSort rank_trans rank_total xs)

end rank

end FormatGraph

namespace FormatGraph.Graph

open Relation

variable {graph : Graph} {format other : NodeId} {depth : Nat}

def followed (graph : Graph) (formats : List NodeId) (format : NodeId) : List NodeId :=
  graph.dependenciesAmong (formats.foldl NodeSet.insert (.empty graph.nodes.size)) format

def follow (graph : Graph) (formats : List NodeId) (format : NodeId) :
    Except QueryError (List NodeId) :=
  return graph.followed formats format

def byDependencies (graph : Graph) (formats : List NodeId) : List NodeId :=
  formats.mergeSort fun f g => (graph.followed formats f).length ≤ (graph.followed formats g).length

theorem formatsWithin_eq {formats : List NodeId} (h : graph.reportedFormats = .ok formats)
    (depth : Nat) : graph.formatsWithin depth =
      Search.run graph.nodes.size depth (graph.follow formats) (graph.byDependencies formats) := by
  rw [formatsWithin, h]
  rfl

theorem byDependencies_sorted (graph : Graph) (formats : List NodeId) :
    (graph.byDependencies formats).Pairwise fun f g =>
      (graph.followed formats f).length ≤ (graph.followed formats g).length :=
  pairwise_mergeSort_rank (fun format => (graph.followed formats format).length) formats

section followed
variable {formats : List NodeId} (hformats : ∀ id, id ∈ formats ↔ graph.FormatBelow id)
include hformats

theorem mem_followed_iff {next : NodeId} :
    next ∈ graph.followed formats format ↔ graph.Requires format next :=
  mem_dependenciesAmong hformats

theorem mem_byDependencies_iff :
    format ∈ graph.byDependencies formats ↔ graph.FormatBelow format := by
  rw [byDependencies, List.mem_mergeSort, hformats]

theorem exists_byDependencies_eq_append (hformat : graph.FormatBelow format)
    (hnone : ∀ next, ¬ graph.DependsOn format next) :
    ∃ before after, graph.byDependencies formats = before ++ [format] ++ after ∧
      ∀ id ∈ before ++ [format], graph.followed formats id = [] := by
  obtain ⟨before, after, hsplit⟩ := List.append_of_mem ((mem_byDependencies_iff hformats).2 hformat)
  have hempty : graph.followed formats format = [] := by
    rw [List.eq_nil_iff_forall_not_mem]
    exact fun next hnext => hnone next ((mem_followed_iff hformats).1 hnext).2
  have hsorted := graph.byDependencies_sorted formats
  rw [hsplit, List.pairwise_append] at hsorted
  refine ⟨before, after, hsplit.trans (List.append_cons before format after), fun id hid => ?_⟩
  rcases List.mem_append.1 hid with hid | hid
  · have hle := hsorted.2.2 id hid format List.mem_cons_self
    rw [hempty, List.length_nil, Nat.le_zero] at hle
    exact List.eq_nil_of_length_eq_zero hle
  · rw [List.mem_singleton.1 hid]
    exact hempty

theorem run_follow_returns (hclosed : graph.Closed) {early late : List NodeId}
    (hroots : ∀ id ∈ early ++ late, graph.FormatBelow id) (hdepth : graph.nodes.size ≤ depth) :
    Returns (Search.run graph.nodes.size depth (graph.follow formats) (early ++ late)) fun ids =>
      ∃ found, Search.Finds (graph.follow formats) early found ∧ found <+: ids := by
  have hpos : 0 < graph.nodes.size := hasNode_root hclosed
  refine Search.run_append_returns (P := fun id => (graph.ofKind? .format id).isSome)
    (fun format _ => .pure fun next hnext => ?_) (fun id hid => hasNode_of_ofKind? hid)
    (fun ids hnodup hids => Nat.le_sub_one_of_lt (formats_length_lt hclosed hnodup hids))
    (fun id hid => (hroots id hid).1) (by omega)
  exact ((mem_followed_iff hformats).1 hnext).2.isSome

end followed

/-- A format below the root that depends on nothing stands before all that are not below it. -/
theorem formatsWithin_independent_first {ids : List NodeId} (hclosed : graph.Closed)
    (hcycle : graph.findCycle root = .ok none) (hdepth : graph.nodes.size ≤ depth)
    (hids : graph.formatsWithin depth = .ok ids) (hother : graph.FormatBelow other)
    (hnone : ∀ next, ¬ graph.DependsOn other next) (hformat : format ∈ ids)
    (houtside : ¬ graph.FormatBelow format) : [other, format].Sublist ids := by
  obtain ⟨formats, hreported, hformats⟩ := reportedFormats_returns hclosed hcycle
  obtain ⟨before, after, hsplit, hempty⟩ := exists_byDependencies_eq_append hformats hother hnone
  have hroots : ∀ id ∈ before ++ [other] ++ after, graph.FormatBelow id := by
    rw [← hsplit]
    exact fun id => (mem_byDependencies_iff hformats).1
  have hsearch := run_follow_returns hformats hclosed hroots hdepth
  rw [← hsplit, ← formatsWithin_eq hreported] at hsearch
  obtain ⟨ids', hids', found, hfinds, rest, rfl⟩ := hsearch
  cases hids.symm.trans hids'
  -- Nothing is followed from the formats up to `other`, so nothing else is found there.
  have hfound : format ∉ found := by
    intro hmem
    obtain ⟨start, hstart, hreaches⟩ := (hfinds.mem_iff format).1 hmem
    rcases hreaches.cases_head with rfl | ⟨next, ⟨nexts, hnexts, hnext⟩, -⟩
    · exact houtside (hroots start (List.mem_append_left after hstart))
    · cases hnexts
      rw [hempty start hstart] at hnext
      cases hnext
  have hlast : other ∈ before ++ [other] := List.mem_append_right before List.mem_cons_self
  have hfirst : other ∈ found := (hfinds.mem_iff other).2 ⟨other, hlast, .refl⟩
  have hlater : format ∈ rest := (List.mem_append.1 hformat).resolve_left hfound
  exact (List.singleton_sublist.2 hfirst).append (List.singleton_sublist.2 hlater)

theorem not_requires_of_not_dependsOn (h : graph.DependsOn format other)
    (hback : ¬ TransGen graph.DependsOn other format) :
    ¬ ReflTransGen graph.Requires other format := by
  intro hrequires
  have hreaches : ReflTransGen graph.DependsOn other format :=
    ReflTransGen.mono (p := graph.DependsOn) (fun _ _ hstep => hstep.2) other format hrequires
  rcases reflTransGen_iff_eq_or_transGen.1 hreaches with rfl | hreaches
  · exact hback (.single h)
  · exact hback hreaches

/-- The formats below the root and those they depend on are listed. One of them stands after a
format that it depends on, unless that one leads back to it, if it is below the root itself, or if
the other one is and depends on nothing. -/
theorem formatsInOrder_settles (h : graph.Assembled) (hacyclic : graph.Acyclic root) :
    Returns graph.formatsInOrder fun ids =>
      (∀ id, id ∈ ids ↔
        graph.FormatBelow id ∨ ∃ user, graph.FormatBelow user ∧ graph.DependsOn user id) ∧
      ∀ format ∈ ids, ∀ other, graph.DependsOn format other →
        ¬ TransGen graph.DependsOn other format →
        graph.FormatBelow format ∨
          graph.FormatBelow other ∧ (∀ next, ¬ graph.DependsOn other next) →
        [other, format].Sublist ids := by
  have hcycle : graph.findCycle root = .ok none :=
    findCycle_eq_ok_none h.closed (hasNode_root h.closed) hacyclic
  have hlimit : graph.nodes.size ≤ graph.depthLimit := Nat.le_succ _
  obtain ⟨ids, hids, horder⟩ := formatsWithin_returns h.closed hcycle hlimit
  refine ⟨ids, hids, horder.mem_iff, fun format hformat other hdepends hback hcase => ?_⟩
  by_cases hbelow : graph.FormatBelow format
  · have hrequires := not_requires_of_not_dependsOn hdepends hback
    exact horder.before format other hbelow hdepends hrequires
  · obtain ⟨hother, hnone⟩ := hcase.resolve_left hbelow
    exact formatsWithin_independent_first h.closed hcycle hlimit hids hother hnone hformat hbelow

end FormatGraph.Graph

namespace FormatGraph

open Relation

/-- The second format depends on the fourth, which is not below the root, and that one on the third.
If `onward` is set, the third depends on the first. -/
def RawGraph.detour (onward : Bool) : RawGraph where
  nodes := [
    ⟨"program", {}, [("elements", .arr [.nat 1, .nat 2, .nat 3])]⟩,
    ⟨"format", {}, []⟩,
    ⟨"format", {}, [("depends", .arr [.nat 5])]⟩,
    ⟨"format", {}, [("depends", .arr (if onward then [.nat 6] else []))]⟩,
    ⟨"format", {}, [("depends", .arr [.nat 7])]⟩,
    ⟨"ident_type", {}, [("base", .nat 8)]⟩,
    ⟨"ident_type", {}, [("base", .nat 9)]⟩,
    ⟨"ident_type", {}, [("base", .nat 10)]⟩,
    ⟨"struct_type", {}, [("base", .nat 4)]⟩,
    ⟨"struct_type", {}, [("base", .nat 1)]⟩,
    ⟨"struct_type", {}, [("base", .nat 3)]⟩]
  scopes := []

theorem Graph.formatsInOrder_settles_detour :
    ∃ graph ids, (RawGraph.detour false).link false = .ok graph ∧ graph.Acyclic root ∧
      graph.formatsInOrder = .ok ids ∧ ⟨4⟩ ∈ ids ∧ graph.DependsOn ⟨4⟩ ⟨3⟩ ∧
      [⟨3⟩, ⟨4⟩].Sublist ids := by
  obtain ⟨graph, h, hcycle, hsecond, hthird, hchildren, hdepends, hnone, hlast⟩ :
      ∃ graph, (RawGraph.detour false).link false = .ok graph ∧ graph.findCycle root = .ok none ∧
        (graph.ofKind? .format ⟨2⟩).isSome ∧ (graph.ofKind? .format ⟨3⟩).isSome ∧
        graph.childList root = [⟨1⟩, ⟨2⟩, ⟨3⟩] ∧ graph.dependencies ⟨2⟩ = [⟨4⟩] ∧
        graph.dependencies ⟨3⟩ = [] ∧ graph.dependencies ⟨4⟩ = [⟨3⟩] :=
    ⟨_, rfl, rfl, rfl, rfl, rfl, rfl, rfl, rfl⟩
  have hassembled : graph.Assembled := .raw h
  have hacyclic : graph.Acyclic root :=
    acyclic_of_findCycle hassembled.closed (hasNode_root hassembled.closed) hcycle
  have hchild (id : NodeId) (hid : id ∈ [⟨1⟩, ⟨2⟩, ⟨3⟩]) : ReflTransGen graph.Child root id :=
    .single (mem_childList.1 (hchildren ▸ hid))
  have hindependent (next : NodeId) : ¬ graph.DependsOn ⟨3⟩ next := by
    rw [← mem_dependencies_iff, hnone]
    exact List.not_mem_nil
  have hback : ¬ TransGen graph.DependsOn ⟨3⟩ ⟨4⟩ := by
    intro hreaches
    obtain ⟨next, hnext, -⟩ := TransGen.head'_iff.1 hreaches
    exact hindependent next hnext
  have huser : graph.DependsOn ⟨2⟩ ⟨4⟩ := mem_dependencies_iff.1 (by rw [hdepends]; decide)
  have hfourth : graph.DependsOn ⟨4⟩ ⟨3⟩ := mem_dependencies_iff.1 (by rw [hlast]; decide)
  obtain ⟨ids, hids, hmem, hsettled⟩ := formatsInOrder_settles hassembled hacyclic
  have hlisted : ⟨4⟩ ∈ ids := (hmem _).2 (.inr ⟨⟨2⟩, ⟨hsecond, hchild _ (by decide)⟩, huser⟩)
  refine ⟨graph, ids, h, hacyclic, hids, hlisted, hfourth, ?_⟩
  exact hsettled _ hlisted _ hfourth hback (.inr ⟨⟨hthird, hchild _ (by decide)⟩, hindependent⟩)

/-- The third format stands after the fourth, which depends on it, if it has a dependency itself. -/
theorem Graph.formatsInOrder_detour_unsettled :
    ∃ graph ids, (RawGraph.detour true).link false = .ok graph ∧ graph.Acyclic root ∧
      graph.formatsInOrder = .ok ids ∧ ids = [⟨1⟩, ⟨4⟩, ⟨2⟩, ⟨3⟩] ∧
      ¬ ∀ format ∈ ids, ∀ other, graph.DependsOn format other →
        ¬ TransGen graph.DependsOn other format → [other, format].Sublist ids := by
  obtain ⟨graph, h, hcycle, hreported, hsorted, hrun, hfirst, hthird, hlast⟩ :
      ∃ graph, (RawGraph.detour true).link false = .ok graph ∧ graph.findCycle root = .ok none ∧
        graph.reportedFormats = .ok [⟨1⟩, ⟨2⟩, ⟨3⟩] ∧
        ([⟨1⟩, ⟨2⟩, ⟨3⟩] : List NodeId).Pairwise (fun f g =>
          decide ((graph.followed [⟨1⟩, ⟨2⟩, ⟨3⟩] f).length ≤
            (graph.followed [⟨1⟩, ⟨2⟩, ⟨3⟩] g).length) = true) ∧
        Search.run graph.nodes.size graph.depthLimit (graph.follow [⟨1⟩, ⟨2⟩, ⟨3⟩])
          [⟨1⟩, ⟨2⟩, ⟨3⟩] = .ok [⟨1⟩, ⟨4⟩, ⟨2⟩, ⟨3⟩] ∧
        graph.dependencies ⟨1⟩ = [] ∧ graph.dependencies ⟨3⟩ = [⟨1⟩] ∧
        graph.dependencies ⟨4⟩ = [⟨3⟩] :=
    ⟨_, rfl, rfl, rfl, by decide, rfl, rfl, rfl, rfl⟩
  have hclosed : graph.Closed := (Assembled.raw h).closed
  have hacyclic : graph.Acyclic root := acyclic_of_findCycle hclosed (hasNode_root hclosed) hcycle
  have horder : graph.formatsInOrder = .ok [⟨1⟩, ⟨4⟩, ⟨2⟩, ⟨3⟩] := by
    rw [formatsInOrder, formatsWithin_eq hreported, byDependencies,
      List.mergeSort_of_pairwise hsorted]
    exact hrun
  have hfourth : graph.DependsOn ⟨4⟩ ⟨3⟩ := mem_dependencies_iff.1 (by rw [hlast]; decide)
  -- The third format leads to the first only, and that one leads nowhere.
  have hback : ¬ TransGen graph.DependsOn ⟨3⟩ ⟨4⟩ := by
    intro hreaches
    obtain ⟨next, hnext, hrest⟩ := TransGen.head'_iff.1 hreaches
    rw [← mem_dependencies_iff, hthird, List.mem_singleton] at hnext
    subst hnext
    rcases hrest.cases_head with heq | ⟨next, hnext, -⟩
    · exact absurd heq (by decide)
    · rw [← mem_dependencies_iff, hfirst] at hnext
      cases hnext
  refine ⟨graph, _, h, hacyclic, horder, rfl, fun hall => ?_⟩
  exact absurd (hall ⟨4⟩ (by decide) ⟨3⟩ hfourth hback) (by decide)

end FormatGraph
