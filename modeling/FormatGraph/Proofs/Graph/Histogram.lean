import FormatGraph.Proofs.Graph.Census
import FormatGraph.Proofs.Graph.Ends
import Mathlib.Data.Set.Card

/-! What the histogram counts. The walk counts a node once however many nodes it is a child of, so
each node that the root leads to is counted once, under its kind, and no other is. -/

namespace FormatGraph.Graph

open Relation

variable {graph : Graph}

def reached (graph : Graph) : Set NodeId :=
  {id | ReflTransGen graph.Child root id}

def reachedOf (graph : Graph) (kind : Kind) : Set NodeId :=
  {id | id ∈ graph.reached ∧ ∃ node, graph.node? id = some node ∧ node.kind = kind}

/-- One entry for each kind that a reached node has, with the number of reached nodes that have it. -/
structure CountsReached (graph : Graph) (counts : List (Kind × Nat)) : Prop where
  nodup : (counts.map Prod.fst).Nodup
  mem_iff : ∀ kind count, (kind, count) ∈ counts ↔
    (graph.reachedOf kind).Nonempty ∧ count = (graph.reachedOf kind).ncard
  sum_eq : (counts.map Prod.snd).sum = graph.reached.ncard

def tallyEntry (kinds : List Kind) (tag : Tag) : Option (Kind × Nat) := do
  let kind ← tag.kind?
  let count := kinds.count kind
  if count = 0 then none else some (kind, count)

def tally (kinds : List Kind) : List (Kind × Nat) :=
  Tag.list.filterMap (tallyEntry kinds)

def histogramWithin (graph : Graph) (depth : Nat) : Except QueryError (List (Kind × Nat)) := do
  let (_, census) ← graph.walkWithin .counting depth root { seen := .empty graph.nodes.size }
  return tally census.kinds.toList

theorem histogram_eq (graph : Graph) :
    graph.histogram = graph.histogramWithin graph.depthLimit := rfl

section tally
variable {kinds : List Kind} {kind : Kind} {count : Nat}

theorem tallyEntry_eq_some_iff {tag : Tag} : tallyEntry kinds tag = some (kind, count) ↔
    tag = .kind kind ∧ kind ∈ kinds ∧ count = kinds.count kind := by
  cases tag with
  | category category => exact ⟨nofun, nofun⟩
  | kind other =>
    have hentry : tallyEntry kinds (.kind other) =
        if kinds.count other = 0 then none else some (other, kinds.count other) := rfl
    rw [hentry, Tag.kind.injEq]
    split_ifs with hcount
    · have hmem : other ∉ kinds := List.count_eq_zero.1 hcount
      refine ⟨nofun, ?_⟩
      rintro ⟨rfl, hkind, -⟩
      exact absurd hkind hmem
    · have hmem : other ∈ kinds := List.count_pos_iff.1 (Nat.pos_of_ne_zero hcount)
      rw [Option.some.injEq, Prod.mk.injEq]
      constructor
      · rintro ⟨rfl, rfl⟩
        exact ⟨rfl, hmem, rfl⟩
      · rintro ⟨rfl, -, rfl⟩
        exact ⟨rfl, rfl⟩

theorem kind_mem_tagList (kind : Kind) : Tag.kind kind ∈ Tag.list := by
  cases kind <;> decide

theorem mem_tally_iff : (kind, count) ∈ tally kinds ↔ kind ∈ kinds ∧ count = kinds.count kind := by
  unfold tally
  rw [List.mem_filterMap]
  constructor
  · rintro ⟨tag, -, htag⟩
    exact (tallyEntry_eq_some_iff.1 htag).2
  · intro h
    exact ⟨.kind kind, kind_mem_tagList kind, tallyEntry_eq_some_iff.2 ⟨rfl, h⟩⟩

theorem nodup_tagList : Tag.list.Nodup := by decide

theorem nodup_tally_keys (kinds : List Kind) : ((tally kinds).map Prod.fst).Nodup := by
  have htag (tag : Tag) (kind : Kind) (h : kind ∈ (tallyEntry kinds tag).map Prod.fst) :
      tag = .kind kind := by
    obtain ⟨entry, hentry, rfl⟩ := Option.map_eq_some_iff.1 h
    exact (tallyEntry_eq_some_iff.1 hentry).1
  unfold tally
  rw [List.map_filterMap]
  refine nodup_tagList.filterMap fun tag tag' kind h h' => ?_
  rw [htag tag kind h, htag tag' kind h']

theorem sum_tally (kinds : List Kind) : ((tally kinds).map Prod.snd).sum = kinds.length := by
  have hkeys : ((tally kinds).map Prod.fst).Perm kinds.dedup := by
    refine (List.perm_ext_iff_of_nodup (nodup_tally_keys kinds) kinds.nodup_dedup).2 fun kind => ?_
    rw [List.mem_dedup, List.mem_map]
    constructor
    · rintro ⟨entry, hentry, rfl⟩
      exact (mem_tally_iff.1 hentry).1
    · intro hkind
      exact ⟨(kind, kinds.count kind), mem_tally_iff.2 ⟨hkind, rfl⟩, rfl⟩
  have hcounts : (tally kinds).map Prod.snd = ((tally kinds).map Prod.fst).map kinds.count := by
    rw [List.map_map]
    exact List.map_congr_left fun entry hentry => (mem_tally_iff.1 hentry).2
  calc ((tally kinds).map Prod.snd).sum
      = (((tally kinds).map Prod.fst).map kinds.count).sum := by rw [hcounts]
    _ = (kinds.dedup.map kinds.count).sum := (hkeys.map kinds.count).sum_eq
    _ = kinds.length := List.sum_map_count_dedup_eq_length kinds

end tally

section reached
variable {ids : List NodeId} {kinds : List Kind} {id : NodeId} {kind : Kind}

theorem leads_children (graph : Graph) : Search.Leads graph.children = graph.Child := by
  funext id child
  unfold Search.Leads Child children Graph.node
  apply propext
  cases graph.node? id with
  | none =>
    constructor
    · rintro ⟨ids, hids, -⟩
      cases hids
    · rintro ⟨node, hnode, -⟩
      cases hnode
  | some node =>
    constructor
    · rintro ⟨ids, hids, hchild⟩
      cases hids
      exact ⟨node, rfl, hchild⟩
    · rintro ⟨node', hnode', hchild⟩
      cases hnode'
      exact ⟨node.children, rfl, hchild⟩

theorem mem_reached_iff (h : Search.Finds graph.children [root] ids) :
    id ∈ graph.reached ↔ id ∈ ids := by
  rw [h.mem_iff, leads_children]
  simp only [List.mem_singleton, exists_eq_left]
  rfl

theorem mem_reachedOf_iff : id ∈ graph.reachedOf kind ↔
    id ∈ graph.reached ∧ graph.kind? id = some kind := by
  unfold reachedOf kind?
  rw [Set.mem_ofPred_eq, Option.map_eq_some_iff]

theorem count_eq_countP (h : (kinds.map some).Perm (ids.map graph.kind?)) (kind : Kind) :
    kinds.count kind = ids.countP fun id => graph.kind? id = some kind := by
  have hcount := h.count_eq (some kind)
  rw [List.count_map_of_injective _ _ (Option.some_injective _)] at hcount
  rw [hcount, List.count, List.countP_map]
  exact List.countP_congr fun id _ => by simp

theorem ncard_eq_countP {α : Type} [DecidableEq α] {xs : List α} (hnodup : xs.Nodup) {p : α → Bool}
    {s : Set α} (hs : ∀ x, x ∈ s ↔ x ∈ xs ∧ p x = true) : s.ncard = xs.countP p := by
  have hset : s = ((xs.filter p).toFinset : Set α) := by
    ext x
    rw [hs, List.coe_toFinset, Set.mem_ofPred_eq, List.mem_filter]
  rw [hset, Set.ncard_coe_finset, List.toFinset_card_of_nodup (hnodup.filter p),
    List.countP_eq_length_filter]

variable (h : Search.Finds graph.children [root] ids)
include h

theorem ncard_reached : graph.reached.ncard = ids.length := by
  rw [ncard_eq_countP h.nodup (p := fun _ => true), List.countP_true]
  intro id
  rw [mem_reached_iff h, eq_self, and_true]

theorem finite_reached : graph.reached.Finite := by
  refine ids.toFinset.finite_toSet.subset fun id hid => ?_
  rw [List.coe_toFinset]
  exact (mem_reached_iff h).1 hid

variable (hkinds : (kinds.map some).Perm (ids.map graph.kind?))
include hkinds

theorem ncard_reachedOf (kind : Kind) : (graph.reachedOf kind).ncard = kinds.count kind := by
  rw [count_eq_countP hkinds]
  refine ncard_eq_countP h.nodup fun id => ?_
  rw [mem_reachedOf_iff, mem_reached_iff h, decide_eq_true_eq]

theorem nonempty_reachedOf_iff (kind : Kind) : (graph.reachedOf kind).Nonempty ↔ kind ∈ kinds := by
  have hfinite : (graph.reachedOf kind).Finite :=
    (finite_reached h).subset fun id hid => (mem_reachedOf_iff.1 hid).1
  rw [← Set.ncard_pos hfinite, ncard_reachedOf h hkinds, List.count_pos_iff]

theorem countsReached_tally : graph.CountsReached (tally kinds) where
  nodup := nodup_tally_keys kinds
  mem_iff kind count := by
    rw [mem_tally_iff, nonempty_reachedOf_iff h hkinds, ncard_reachedOf h hkinds]
  sum_eq := by
    have hlength := hkinds.length_eq
    rw [List.length_map, List.length_map] at hlength
    rw [sum_tally, ncard_reached h, hlength]

end reached

section closed
variable (hclosed : graph.Closed)
include hclosed

theorem histogramWithin_returns {depth : Nat} (hdepth : graph.nodes.size < depth) :
    Returns (graph.histogramWithin depth) graph.CountsReached := by
  refine (counting_returns hclosed hdepth).bind fun r hr => ?_
  obtain ⟨ids, hids, hkinds⟩ := hr
  exact .pure (countsReached_tally hids hkinds)

theorem reached_bounded : graph.reached.Finite ∧ graph.reached.ncard ≤ graph.nodes.size := by
  obtain ⟨ids, -, hids⟩ := reachable_finds hclosed (Nat.lt_succ_self _)
  refine ⟨finite_reached hids, ?_⟩
  rw [ncard_reached hids]
  exact Handle.length_le hids.nodup (hasNode_of_finds hclosed hids)

end closed

theorem histogramWithin_agrees {depth depth' : Nat} (h : depth ≤ depth') :
    AgreesUnless (· = .tooDeep) (graph.histogramWithin depth) (graph.histogramWithin depth') :=
  (walkWithin_agrees .counting h _).bind fun _ _ => .refl _

/-- On every graph, whatever cycles its children form, the histogram ends and has each kind that the
root leads to with the number of its nodes. Together they are all the nodes that the root leads to. -/
theorem histogram_countsReached (h : graph.Assembled) :
    EndsWithin graph.depthLimit graph.histogramWithin graph.histogram ∧
      Returns graph.histogram graph.CountsReached ∧
      graph.reached.Finite ∧ graph.reached.ncard ≤ graph.nodes.size := by
  have hreturns : Returns (graph.histogramWithin graph.depthLimit) graph.CountsReached :=
    histogramWithin_returns h.closed (Nat.lt_succ_self _)
  rw [histogram_eq]
  refine ⟨?_, hreturns, reached_bounded h.closed⟩
  exact .of_agrees (fun _ _ hle => histogramWithin_agrees hle) hreturns le_rfl

end FormatGraph.Graph

namespace FormatGraph

def RawGraph.circular : RawGraph where
  nodes := [
    ⟨"program", {}, [("elements", .arr [.nat 1, .nat 1])]⟩,
    ⟨"paren", {}, [("expr", .nat 2)]⟩,
    ⟨"paren", {}, [("expr", .nat 1)]⟩,
    ⟨"range", {}, []⟩]
  scopes := []

theorem Graph.histogram_countsReached_circular :
    ∃ graph, RawGraph.circular.link false = .ok graph ∧ graph.nodes.size = 4 ∧
      graph.histogram = .ok [(.program, 1), (.paren, 2)] ∧ graph.reached.ncard = 3 ∧
      (graph.reachedOf .paren).ncard = 2 ∧ graph.reachedOf .range = ∅ := by
  obtain ⟨graph, h, hsize, hcounts⟩ : ∃ graph, RawGraph.circular.link false = .ok graph ∧
      graph.nodes.size = 4 ∧ graph.histogram = .ok [(.program, 1), (.paren, 2)] :=
    ⟨_, rfl, rfl, rfl⟩
  obtain ⟨-, ⟨counts, hcounts', hcounted⟩, -, -⟩ := histogram_countsReached (.raw h)
  obtain rfl : counts = [(.program, 1), (.paren, 2)] :=
    Except.ok.inj (hcounts'.symm.trans hcounts)
  refine ⟨graph, h, hsize, hcounts, hcounted.sum_eq.symm, ?_, ?_⟩
  · exact ((hcounted.mem_iff .paren 2).1 (by decide)).2.symm
  · by_contra hrange
    have hnonempty := Set.nonempty_iff_ne_empty.2 hrange
    have hentry := (hcounted.mem_iff .range _).2 ⟨hnonempty, rfl⟩
    simp at hentry

end FormatGraph
