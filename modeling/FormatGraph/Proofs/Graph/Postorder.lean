import FormatGraph.Proofs.Graph.Walk

/-! The order in which a walk leaves nodes. It is put together from the orders below the children,
one after the other, and holds what is reached from the start. -/

namespace FormatGraph.Graph

open Relation

variable {graph : Graph} {id : NodeId} {depth : Nat}

def childList (graph : Graph) (id : NodeId) : List NodeId :=
  match graph.node? id with
  | some node => node.children
  | none => []

theorem mem_childList {child : NodeId} : child ∈ graph.childList id ↔ graph.Child id child := by
  unfold childList Child
  cases graph.node? id with
  | none => simp
  | some node => simp

def postorderWithin (graph : Graph) : Nat → NodeId → List NodeId
  | 0, _ => []
  | depth + 1, id => (graph.childList id).flatMap (graph.postorderWithin depth) ++ [id]

theorem mem_postorderWithin (h : graph.DescendsWithin depth id) {node : NodeId} :
    node ∈ graph.postorderWithin depth id ↔ ReflTransGen graph.Child id node := by
  induction depth generalizing id with
  | zero => cases h
  | succ depth ih =>
    rw [postorderWithin, List.mem_append, List.mem_flatMap, List.mem_singleton, or_comm,
      ReflTransGen.cases_head_iff, eq_comm]
    refine or_congr_right (exists_congr fun child => ?_)
    rw [mem_childList]
    exact and_congr_right fun hchild => ih (h child hchild)

theorem allM_leaving_returns {ids : List NodeId}
    (h : ∀ id ∈ ids, ∀ left, Returns (graph.walkWithin .leaving depth id left) fun r =>
      r.1 = true ∧ r.2.toList = left.toList ++ graph.postorderWithin depth id)
    (left : Array NodeId) :
    Returns (ids.allM (graph.walkWithin .leaving depth) left) fun r =>
      r.1 = true ∧ r.2.toList = left.toList ++ ids.flatMap (graph.postorderWithin depth) := by
  induction ids generalizing left with
  | nil => exact .pure ⟨rfl, (List.append_nil _).symm⟩
  | cons id ids ih =>
    refine Returns.bindState (h id List.mem_cons_self left) fun finished next => ?_
    rintro ⟨hfinished, hnext⟩
    subst hfinished
    refine (ih (fun id hid => h id (List.mem_cons_of_mem _ hid)) next).mono fun r hr => ?_
    refine ⟨hr.1, ?_⟩
    rw [hr.2, hnext, List.flatMap_cons, List.append_assoc]

theorem walkWithin_leaving_returns (hclosed : graph.Closed) (hid : graph.HasNode id)
    (hdescends : graph.DescendsWithin depth id) (left : Array NodeId) :
    Returns (graph.walkWithin .leaving depth id left) fun r =>
      r.1 = true ∧ r.2.toList = left.toList ++ graph.postorderWithin depth id := by
  induction depth generalizing id left with
  | zero => cases hdescends
  | succ depth ih =>
    unfold walkWithin
    refine ((node_returns hid).liftState left).bindState fun node before => ?_
    rintro ⟨hnode, rfl⟩
    refine Returns.bindState (P := fun r => r = (.descend, before)) ⟨_, rfl, rfl⟩ ?_
    rintro _ _ ⟨⟩
    have hwalk : Returns (node.visitChildren (graph.walkWithin .leaving depth) before) fun r =>
        r.1 = true ∧
          r.2.toList = before.toList ++ node.children.flatMap (graph.postorderWithin depth) := by
      rw [Node.visitChildren_eq_allM]
      refine allM_leaving_returns (fun child hchild left => ?_) before
      have hstep : graph.Child id child := ⟨node, hnode, hchild⟩
      exact ih (hclosed.hasNode_of_child hstep) (hdescends child hstep) left
    refine hwalk.bindState fun finished last => ?_
    rintro ⟨hfinished, hlast⟩
    subst hfinished
    have hchildren : graph.childList id = node.children := by rw [childList, hnode]
    refine .pure ⟨rfl, ?_⟩
    rw [postorderWithin, hchildren, ← List.append_assoc, ← hlast]
    exact Array.toList_push

theorem postorder_reaches (hclosed : graph.Closed) (hid : graph.HasNode id)
    (hcycle : graph.findCycle id = .ok none) :
    Returns (graph.postorder id) fun ids =>
      ∀ node, node ∈ ids ↔ ReflTransGen graph.Child id node := by
  have hdescends := descendsWithin_of_findCycle hclosed hid hcycle
  have hwalk := walkWithin_leaving_returns hclosed hid hdescends #[]
  refine hwalk.bind fun r hr => .pure fun node => ?_
  rw [hr.2]
  exact mem_postorderWithin hdescends

end FormatGraph.Graph
