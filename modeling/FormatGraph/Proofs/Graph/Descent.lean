import FormatGraph.Graph.NodeSet
import FormatGraph.Proofs.Draft
import Mathlib.Logic.Relation

/-! Paths of children. A path that does not come back to a node has no more nodes than the graph, so
below a node without a cycle no path goes on for ever. -/

namespace FormatGraph

open Relation

namespace NodeSet

theorem contains_empty (size : Nat) (id : NodeId) : (empty size).contains id = false := by
  rw [empty, contains, Array.getD_eq_getD_getElem?, Array.getElem?_replicate]
  split_ifs <;> rfl

theorem eq_or_contains_of_contains_insert {set : NodeSet} {id other : NodeId}
    (h : (set.insert id).contains other = true) : other = id ∨ set.contains other = true := by
  by_cases hindex : id.index = other.index
  · exact .inl (Handle.eq_of_index_eq hindex.symm)
  · rw [insert, contains, Array.getD_eq_getD_getElem?, Array.getElem?_setIfInBounds_ne hindex,
      ← Array.getD_eq_getD_getElem?] at h
    exact .inr h

theorem contains_insert_self {set : NodeSet} {id : NodeId} (h : id.index < set.marks.size) :
    (set.insert id).contains id = true := by
  simp [insert, contains, Array.getD_eq_getD_getElem?, h]

theorem contains_insert_of_contains {set : NodeSet} {other : NodeId}
    (h : set.contains other = true) (id : NodeId) : (set.insert id).contains other = true := by
  by_cases hindex : id.index = other.index
  · have hlt : other.index < set.marks.size := by
      by_contra hge
      simp [contains, Array.getD_eq_getD_getElem?, Nat.le_of_not_lt hge] at h
    rw [Handle.eq_of_index_eq hindex]
    exact contains_insert_self hlt
  · rw [insert, contains, Array.getD_eq_getD_getElem?, Array.getElem?_setIfInBounds_ne hindex,
      ← Array.getD_eq_getD_getElem?]
    exact h

theorem contains_insert_iff {set : NodeSet} {id other : NodeId} (h : id.index < set.marks.size) :
    (set.insert id).contains other = true ↔ other = id ∨ set.contains other = true := by
  refine ⟨eq_or_contains_of_contains_insert, ?_⟩
  rintro (rfl | hother)
  · exact contains_insert_self h
  · exact contains_insert_of_contains hother id

end NodeSet

namespace Graph

variable {graph : Graph} {id child : NodeId} {path : List NodeId}

def Child (graph : Graph) (parent child : NodeId) : Prop :=
  ∃ node, graph.node? parent = some node ∧ child ∈ node.children

def Acyclic (graph : Graph) (id : NodeId) : Prop :=
  ∀ node, ReflTransGen graph.Child id node → ¬ TransGen graph.Child node node

/-- All paths of children from `id` have at most `depth` nodes. -/
def DescendsWithin (graph : Graph) : Nat → NodeId → Prop
  | 0, _ => False
  | depth + 1, id => ∀ child, graph.Child id child → graph.DescendsWithin depth child

theorem node?_of_hasNode (h : graph.HasNode id) : ∃ node, graph.node? id = some node :=
  ⟨_, Array.getElem?_eq_getElem h⟩

theorem hasNode_of_node? {node : Node} (h : graph.node? id = some node) : graph.HasNode id :=
  (Array.getElem?_eq_some_iff.1 h).1

theorem mem_nodes_of_node? {node : Node} (h : graph.node? id = some node) : node ∈ graph.nodes :=
  Array.mem_of_getElem? h

theorem node_eq_ok_iff {node : Node} : graph.node id = .ok node ↔ graph.node? id = some node := by
  rw [Graph.node]
  cases graph.node? id <;> simp

theorem node_returns (h : graph.HasNode id) :
    Returns (graph.node id) fun node => graph.node? id = some node := by
  obtain ⟨node, hnode⟩ := node?_of_hasNode h
  exact ⟨node, node_eq_ok_iff.2 hnode, hnode⟩

theorem children_eq_ok_iff {children : List NodeId} :
    graph.children id = .ok children ↔
      ∃ node, graph.node? id = some node ∧ node.children = children := by
  rw [Graph.children, bind_eq_ok_iff]
  simp only [node_eq_ok_iff]
  exact exists_congr fun node => and_congr_right fun _ => ⟨Except.ok.inj, congrArg Except.ok⟩

theorem mem_children_iff {children : List NodeId} (h : graph.children id = .ok children)
    (child : NodeId) : child ∈ children ↔ graph.Child id child := by
  obtain ⟨node, hnode, rfl⟩ := children_eq_ok_iff.1 h
  refine ⟨fun hchild => ⟨node, hnode, hchild⟩, ?_⟩
  rintro ⟨node', hnode', hchild⟩
  cases hnode.symm.trans hnode'
  exact hchild

theorem children_returns (h : graph.HasNode id) :
    Returns (graph.children id) fun ids => ∀ child, child ∈ ids ↔ graph.Child id child := by
  obtain ⟨node, hnode⟩ := node?_of_hasNode h
  have hchildren := children_eq_ok_iff.2 ⟨node, hnode, rfl⟩
  exact ⟨node.children, hchildren, mem_children_iff hchildren⟩

theorem Closed.hasNode_of_child (hclosed : graph.Closed) (h : graph.Child id child) :
    graph.HasNode child := by
  obtain ⟨node, hnode, hchild⟩ := h
  exact hclosed.children node (mem_nodes_of_node? hnode) child hchild

theorem Closed.hasNode_of_reaches (hclosed : graph.Closed) (hid : graph.HasNode id) {node : NodeId}
    (h : ReflTransGen graph.Child id node) : graph.HasNode node := by
  cases h with
  | refl => exact hid
  | tail _ hchild => exact hclosed.hasNode_of_child hchild

theorem hasNode_root (hclosed : graph.Closed) : graph.HasNode root := by
  obtain ⟨program, hprogram, -⟩ := hclosed.root
  exact hasNode_of_node? hprogram

/-- A path of children to a node, given with the last one first, on which no node comes twice. -/
structure Trail (graph : Graph) (path : List NodeId) (id : NodeId) : Prop where
  nodup : (id :: path).Nodup
  within : ∀ node ∈ id :: path, graph.HasNode node
  reaches : ∀ node ∈ id :: path, ReflTransGen graph.Child node id

namespace Trail

theorem start (h : graph.HasNode id) : graph.Trail [] id :=
  ⟨List.nodup_singleton id, List.forall_mem_singleton.2 h, List.forall_mem_singleton.2 .refl⟩

theorem step (h : graph.Trail path id) (hclosed : graph.Closed) (hchild : graph.Child id child)
    (hfresh : child ∉ id :: path) : graph.Trail (id :: path) child where
  nodup := List.nodup_cons.2 ⟨hfresh, h.nodup⟩
  within := List.forall_mem_cons.2 ⟨hclosed.hasNode_of_child hchild, h.within⟩
  reaches := List.forall_mem_cons.2 ⟨.refl, fun node hnode => (h.reaches node hnode).tail hchild⟩

theorem cycle (h : graph.Trail path id) (hchild : graph.Child id child) (hmem : child ∈ id :: path) :
    TransGen graph.Child child child :=
  TransGen.tail' (h.reaches child hmem) hchild

theorem length_lt (h : graph.Trail path id) : path.length < graph.nodes.size :=
  Handle.length_le h.nodup h.within

end Trail

theorem acyclic_of_children (h : ∀ child, graph.Child id child → graph.Acyclic child) :
    graph.Acyclic id := by
  intro node hreaches hcycle
  -- A cycle through a node below `id` is also below the child that leads there.
  have hbelow : TransGen graph.Child id node := TransGen.trans_right hreaches hcycle
  obtain ⟨child, hchild, hrest⟩ := TransGen.head'_iff.1 hbelow
  exact h child hchild node hrest hcycle

theorem Acyclic.below (h : graph.Acyclic id) (hchild : graph.Child id child) : graph.Acyclic child :=
  fun node hreaches => h node (.head hchild hreaches)

theorem Acyclic.descendsWithin (hclosed : graph.Closed) {depth : Nat} (hacyclic : graph.Acyclic id)
    (htrail : graph.Trail path id) (hdepth : graph.nodes.size ≤ depth + path.length) :
    graph.DescendsWithin depth id := by
  induction depth generalizing id path with
  | zero =>
    -- The trail alone would have more nodes than there are.
    have hlength := htrail.length_lt
    omega
  | succ depth ih =>
    intro child hchild
    have hfresh : child ∉ id :: path := by
      intro hmem
      exact hacyclic.below hchild child .refl (htrail.cycle hchild hmem)
    refine ih (hacyclic.below hchild) (htrail.step hclosed hchild hfresh) ?_
    rw [List.length_cons]
    omega

end Graph

end FormatGraph
