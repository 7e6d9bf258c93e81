import FormatGraph.Graph.Expression
import FormatGraph.Proofs.Graph.CycleSearch

/-! Walks below which there is no cycle. Such a walk comes to an end whatever its visitor does, and
the visitor is handed nodes of the graph only. The same holds of questions that go down from an
expression to its parts. -/

namespace FormatGraph

variable {σ : Type}

structure Visitor.Keeps (visitor : Visitor σ) (graph : Graph) (I : σ → Prop) : Prop where
  enter : ∀ id node state, graph.node? id = some node → I state → I (visitor.enter id node state).2
  leave : ∀ id node state, graph.node? id = some node → I state → I (visitor.leave id node state)

namespace Graph

variable {graph : Graph} {id : NodeId} {depth : Nat}

theorem walkWithin_returns (hclosed : graph.Closed) {visitor : Visitor σ} {I : σ → Prop}
    (hkeeps : visitor.Keeps graph I) (hid : graph.HasNode id)
    (hdescends : graph.DescendsWithin depth id) {state : σ} (hstate : I state) :
    Returns (graph.walkWithin visitor depth id state) fun r => I r.2 := by
  induction depth generalizing id state with
  | zero => cases hdescends
  | succ depth ih =>
    unfold walkWithin
    refine ((node_returns hid).liftState state).bindState fun node before => ?_
    rintro ⟨hnode, rfl⟩
    have henter := hkeeps.enter id node before hnode hstate
    refine Returns.bindState (P := fun r => I r.2) ⟨_, rfl, henter⟩ fun step entered hentered => ?_
    cases step with
    | stop => exact .pure hentered
    | skip => exact .pure (hkeeps.leave id node entered hnode hentered)
    | descend =>
      -- A child has one step less to go than its parent.
      have hwalk : Returns (node.visitChildren (graph.walkWithin visitor depth) entered)
          fun r => I r.2 := by
        rw [Node.visitChildren_eq_allM]
        refine Returns.allStateM (fun child hchild state hstate => ?_) hentered
        have hstep : graph.Child id child := ⟨node, hnode, hchild⟩
        exact ih (hclosed.hasNode_of_child hstep) (hdescends child hstep) hstate
      refine hwalk.bindState fun finished left hleft => ?_
      cases finished with
      | true => exact .pure (hkeeps.leave id node left hnode hleft)
      | false => exact .pure hleft

section acyclic
variable (hclosed : graph.Closed) (hid : graph.HasNode id) (hcycle : graph.findCycle id = .ok none)
include hclosed hid hcycle

theorem walk_returns {visitor : Visitor σ} {I : σ → Prop} (hkeeps : visitor.Keeps graph I)
    {state : σ} (hstate : I state) : Returns (graph.walk visitor id state) fun r => I r.2 :=
  walkWithin_returns hclosed hkeeps hid (descendsWithin_of_findCycle hclosed hid hcycle) hstate

theorem preorder_returns : Returns (graph.preorder id) fun ids => ∀ id ∈ ids, graph.HasNode id := by
  refine (walk_returns hclosed hid hcycle (I := fun entered => ∀ id ∈ entered, graph.HasNode id) ?_
    (Array.forall_mem_empty _)).bind fun r hr => .pure fun id hmem => hr id (Array.mem_toList_iff.1 hmem)
  refine ⟨fun id node entered hnode hentered => ?_, fun _ _ _ _ hentered => hentered⟩
  exact Array.forall_mem_push.2 ⟨hasNode_of_node? hnode, hentered⟩

theorem postorder_returns :
    Returns (graph.postorder id) fun ids => ∀ id ∈ ids, graph.HasNode id := by
  refine (walk_returns hclosed hid hcycle (I := fun left => ∀ id ∈ left, graph.HasNode id) ?_
    (Array.forall_mem_empty _)).bind fun r hr => .pure fun id hmem => hr id (Array.mem_toList_iff.1 hmem)
  refine ⟨fun _ _ _ _ hleft => hleft, fun id node left hnode hleft => ?_⟩
  exact Array.forall_mem_push.2 ⟨hasNode_of_node? hnode, hleft⟩

end acyclic

section expression
variable (hclosed : graph.Closed)
include hclosed

theorem isAnyRangeWithin_returns (hid : graph.HasNode id)
    (hdescends : graph.DescendsWithin depth id) :
    Returns (graph.isAnyRangeWithin depth id) fun _ => True := by
  induction depth generalizing id with
  | zero => cases hdescends
  | succ depth ih =>
    unfold isAnyRangeWithin
    refine (node_returns hid).bind fun node hnode => ?_
    have hinner (hkey : ∀ field ∈ node.kind.schema, field.key = "expr" →
        field.type.isChild = true) {inner : NodeId} (h : node.ref? "expr" = some inner) :
        Returns (graph.isAnyRangeWithin depth inner) fun _ => True := by
      have hstep : graph.Child id inner := ⟨node, hnode, Node.mem_children_of_ref? hkey h⟩
      exact ih (hclosed.hasNode_of_child hstep) (hdescends inner hstep)
    split
    · exact .pure trivial
    next hkind =>
      cases hexpr : node.ref? "expr" with
      | some inner => exact hinner (by rw [hkind]; decide) hexpr
      | none => exact .pure trivial
    next hkind =>
      cases hexpr : node.ref? "expr" with
      | some inner => exact hinner (by rw [hkind]; decide) hexpr
      | none => exact .pure trivial
    · exact .pure trivial

theorem configPathWithin?_returns (hid : graph.HasNode id)
    (hdescends : graph.DescendsWithin depth id) :
    Returns (graph.configPathWithin? depth id) fun _ => True := by
  induction depth generalizing id with
  | zero => cases hdescends
  | succ depth ih =>
    unfold configPathWithin?
    refine (node_returns hid).bind fun node hnode => ?_
    split
    · exact .pure trivial
    next hkind =>
      have hkey : ∀ field ∈ node.kind.schema, field.key = "target" → field.type.isChild = true := by
        rw [hkind]
        decide
      cases htarget : node.ref? "target" with
      | none => exact .pure trivial
      | some target =>
        have hstep : graph.Child id target := ⟨node, hnode, Node.mem_children_of_ref? hkey htarget⟩
        refine (ih (hclosed.hasNode_of_child hstep) (hdescends target hstep)).bind fun path _ => ?_
        cases path with
        | none => exact .pure trivial
        | some path => exact .pure trivial
    · exact .pure trivial

end expression

end Graph

end FormatGraph
