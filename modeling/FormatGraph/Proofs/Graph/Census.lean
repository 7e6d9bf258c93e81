import FormatGraph.Graph.Histogram
import FormatGraph.Proofs.Graph.Search

/-! The walk that counts. It passes by the nodes that it has seen, so it goes where a search goes that
enters each node once, and what it has counted are the nodes that the search has entered. -/

namespace FormatGraph

namespace Graph

def kind? (graph : Graph) (id : NodeId) : Option Kind :=
  (graph.node? id).map Node.kind

end Graph

namespace Census

variable {graph : Graph} {path ids : List NodeId} {search search' : Search} {census : Census}
  {id : NodeId} {depth : Nat}

/-- The census has seen the nodes that the search has entered, and holds their kinds. -/
structure Mirrors (graph : Graph) (path : List NodeId) (search : Search) (census : Census) :
    Prop where
  seen : census.seen = search.entered
  kinds : (census.kinds.toList.map some).Perm ((path ++ search.order.toList).map graph.kind?)

namespace Mirrors

theorem empty (graph : Graph) :
    Mirrors graph [] { entered := .empty graph.nodes.size } { seen := .empty graph.nodes.size } :=
  ⟨rfl, .nil⟩

theorem enter (h : Mirrors graph path search census) {node : Node}
    (hnode : graph.node? id = some node) :
    Mirrors graph (id :: path) { search with entered := search.entered.insert id }
      ⟨census.seen.insert id, census.kinds.push node.kind⟩ where
  seen := congrArg (NodeSet.insert · id) h.seen
  kinds := by
    have hkind : graph.kind? id = some node.kind := by rw [Graph.kind?, hnode, Option.map_some]
    rw [Array.toList_push, List.map_append, List.cons_append, List.map_cons (l := path ++ _), hkind]
    exact List.perm_append_comm.trans (h.kinds.cons _)

theorem finish (h : Mirrors graph (id :: path) search census) :
    Mirrors graph path { search with order := search.order.push id } census where
  seen := h.seen
  kinds := by
    have hperm : (id :: path ++ search.order.toList).Perm
        (path ++ (search.order.push id).toList) := by
      rw [Array.toList_push, ← List.append_assoc]
      exact (List.perm_append_singleton id _).symm
    exact h.kinds.trans (hperm.map _)

end Mirrors

theorem allM_counting {visit : Search → NodeId → Except QueryError Search}
    {walk : NodeId → StateT Census (Except QueryError) Bool}
    (h : ∀ id ∈ ids, ∀ search search' census, Mirrors graph path search census →
      visit search id = .ok search' →
        Returns (walk id census) fun r => r.1 = true ∧ Mirrors graph path search' r.2)
    (hcensus : Mirrors graph path search census) (hvisits : ids.foldlM visit search = .ok search') :
    Returns (ids.allM walk census) fun r => r.1 = true ∧ Mirrors graph path search' r.2 := by
  induction ids generalizing search census with
  | nil =>
    cases hvisits
    exact .pure ⟨rfl, hcensus⟩
  | cons id ids ih =>
    rw [List.foldlM_cons] at hvisits
    obtain ⟨mid, hmid, hrest⟩ := bind_eq_ok_iff.1 hvisits
    refine (h id List.mem_cons_self _ _ _ hcensus hmid).bindState fun finished next => ?_
    rintro ⟨rfl, hnext⟩
    exact ih (fun id hid => h id (List.mem_cons_of_mem _ hid)) hnext hrest

/-- Where a search comes to an end, so does the walk that counts. -/
theorem walkWithin_counting (hclosed : graph.Closed) (hid : graph.HasNode id)
    (hcensus : Mirrors graph path search census)
    (hvisit : search.visit graph.children depth id = .ok search') :
    Returns (graph.walkWithin .counting depth id census) fun r =>
      r.1 = true ∧ Mirrors graph path search' r.2 := by
  induction depth generalizing id path search search' census with
  | zero => cases hvisit
  | succ depth ih =>
    unfold Search.visit at hvisit
    unfold Graph.walkWithin
    refine ((Graph.node_returns hid).liftState census).bindState fun node before => ?_
    rintro ⟨hnode, rfl⟩
    by_cases hentered : search.entered.contains id = true
    · -- Both pass the node by.
      rw [if_pos hentered] at hvisit
      cases hvisit
      have henter : Visitor.counting.enter id node before = (.skip, before) := by
        rw [← hcensus.seen] at hentered
        exact if_pos hentered
      refine Returns.bindState (P := fun r => r = (.skip, before)) ⟨_, rfl, henter⟩ ?_
      rintro _ _ ⟨⟩
      exact .pure ⟨rfl, hcensus⟩
    · -- Both go on to the children. The walk counts the node before them, and the search finishes it
      -- after them.
      rw [if_neg hentered] at hvisit
      obtain ⟨children, hchildren, hvisits⟩ := bind_eq_ok_iff.1 hvisit
      obtain ⟨below, hbelow, hsearch⟩ := bind_eq_ok_iff.1 hvisits
      cases hsearch
      obtain ⟨node', hnode', rfl⟩ := Graph.children_eq_ok_iff.1 hchildren
      cases hnode.symm.trans hnode'
      have henter : Visitor.counting.enter id node before =
          (.descend, ⟨before.seen.insert id, before.kinds.push node.kind⟩) := by
        rw [← hcensus.seen] at hentered
        exact if_neg hentered
      refine Returns.bindState
        (P := fun r => r = (.descend, ⟨before.seen.insert id, before.kinds.push node.kind⟩))
        ⟨_, rfl, henter⟩ ?_
      rintro _ _ ⟨⟩
      simp only [Node.visitChildren_eq_allM]
      have hwalk := allM_counting (fun child hchild _ _ _ hcensus hvisit => ih
        (hclosed.hasNode_of_child ⟨node, hnode, hchild⟩) hcensus hvisit) (hcensus.enter hnode) hbelow
      refine hwalk.bindState fun finished counted => ?_
      rintro ⟨rfl, hcounted⟩
      exact .pure ⟨rfl, hcounted.finish⟩

end Census

namespace Graph

variable {graph : Graph} (hclosed : graph.Closed)
include hclosed

theorem counting_returns {depth : Nat} (hdepth : graph.nodes.size < depth) :
    Returns (graph.walkWithin .counting depth root { seen := .empty graph.nodes.size }) fun r =>
      ∃ ids, Search.Finds graph.children [root] ids ∧
        (r.2.kinds.toList.map some).Perm (ids.map graph.kind?) := by
  obtain ⟨ids, hrun, hfinds⟩ := reachable_finds hclosed hdepth
  obtain ⟨search, hvisits, hids⟩ := bind_eq_ok_iff.1 hrun
  cases hids
  rw [List.foldlM_cons] at hvisits
  obtain ⟨visited, hvisit, hrest⟩ := bind_eq_ok_iff.1 hvisits
  cases hrest
  have hwalk := Census.walkWithin_counting hclosed (hasNode_root hclosed) (.empty graph) hvisit
  exact hwalk.mono fun r hr => ⟨_, hfinds, hr.2.kinds⟩

theorem histogram_returns : Returns graph.histogram fun _ => True :=
  (counting_returns hclosed (Nat.lt_succ_self _)).bind fun _ _ => .pure trivial

end Graph

end FormatGraph
