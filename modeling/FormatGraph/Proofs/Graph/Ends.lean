import FormatGraph.Proofs.Graph.Formats
import FormatGraph.Proofs.Link.Assembly
import Mathlib.Data.List.Chain

/-! Walks that end. Where the search for a cycle finds none, all that goes down from a node ends
before it is deeper than there are nodes. Where it finds one there are paths of every length, and a
walk that always descends goes deeper than any bound. -/

namespace FormatGraph

open Relation

variable {σ : Type}

def Visitor.Descends (visitor : Visitor σ) : Prop :=
  ∀ id node state, (visitor.enter id node state).1 = .descend

/-- The computation succeeds, and comes to the same when its depth is bounded by `limit` or more. -/
def EndsWithin {α : Type} (limit : Nat) (bounded : Nat → Except QueryError α)
    (result : Except QueryError α) : Prop :=
  ∃ a, result = .ok a ∧ ∀ depth, limit ≤ depth → bounded depth = .ok a

theorem EndsWithin.of_agrees {α : Type} {bounded : Nat → Except QueryError α} {limit depth : Nat}
    (hagrees : ∀ depth depth', depth ≤ depth' →
      AgreesUnless (· = .tooDeep) (bounded depth) (bounded depth'))
    {P : α → Prop} (h : Returns (bounded limit) P) (hdepth : limit ≤ depth) :
    EndsWithin limit bounded (bounded depth) := by
  obtain ⟨a, ha, -⟩ := h
  have hsame (depth : Nat) (hdepth : limit ≤ depth) : bounded depth = .ok a :=
    (hagrees limit depth hdepth).eq_ok ha
  exact ⟨a, hsame depth hdepth, hsame⟩

namespace Graph

variable {graph : Graph} {id : NodeId} {depth depth' : Nat}

inductive Assembled (graph : Graph) : Prop where
  | draft {draft : Draft} : draft.finish = .ok graph → Assembled graph
  | raw {raw : RawGraph} {strict : Bool} : raw.link strict = .ok graph → Assembled graph

theorem Assembled.closed (h : graph.Assembled) : graph.Closed := by
  cases h with
  | draft h => exact (Draft.finish_eq_ok_iff.1 h).2
  | raw h =>
    obtain ⟨kinds, nodes, scopes, -, -, hclosed⟩ := RawGraph.exists_parts_of_link_eq_ok h
    exact hclosed

section paths

theorem descendsWithin_iff : graph.DescendsWithin depth id ↔
    ∀ path, List.IsChain graph.Child (id :: path) → path.length < depth := by
  induction depth generalizing id with
  | zero =>
    constructor
    · intro h
      cases h
    · intro h
      exact absurd (h [] (List.isChain_singleton id)) (Nat.not_lt_zero _)
  | succ depth ih =>
    constructor
    · intro h path hpath
      cases path with
      | nil => exact Nat.succ_pos depth
      | cons child path =>
        obtain ⟨hchild, hpath⟩ := List.isChain_cons_cons.1 hpath
        have hlength := ih.1 (h child hchild) path hpath
        rw [List.length_cons]
        omega
    · intro h child hchild
      refine ih.2 fun path hpath => ?_
      have hlength := h (child :: path) (List.isChain_cons_cons.2 ⟨hchild, hpath⟩)
      rw [List.length_cons] at hlength
      omega

theorem exists_child_of_not_acyclic (h : ¬ graph.Acyclic id) :
    ∃ child, graph.Child id child ∧ ¬ graph.Acyclic child := by
  by_contra hnone
  push Not at hnone
  exact h (acyclic_of_children hnone)

theorem exists_path_of_not_acyclic (h : ¬ graph.Acyclic id) (length : Nat) :
    ∃ path, List.IsChain graph.Child (id :: path) ∧ path.length = length := by
  induction length generalizing id with
  | zero => exact ⟨[], List.isChain_singleton id, rfl⟩
  | succ length ih =>
    obtain ⟨child, hchild, hcyclic⟩ := exists_child_of_not_acyclic h
    obtain ⟨path, hpath, hlength⟩ := ih hcyclic
    refine ⟨child :: path, List.isChain_cons_cons.2 ⟨hchild, hpath⟩, ?_⟩
    rw [List.length_cons, hlength]

theorem not_descendsWithin_of_not_acyclic (h : ¬ graph.Acyclic id) (depth : Nat) :
    ¬ graph.DescendsWithin depth id := by
  intro hdescends
  obtain ⟨path, hpath, hlength⟩ := exists_path_of_not_acyclic h depth
  have hlt := descendsWithin_iff.1 hdescends path hpath
  omega

end paths

section depth

theorem walkWithin_agrees (visitor : Visitor σ) (h : depth ≤ depth') (state : σ) :
    AgreesUnless (· = .tooDeep) (graph.walkWithin visitor depth id state)
      (graph.walkWithin visitor depth' id state) := by
  induction depth generalizing depth' id state with
  | zero => exact .inl ⟨_, rfl, rfl⟩
  | succ depth ih =>
    obtain ⟨depth', rfl⟩ : ∃ n, depth' = n + 1 := ⟨depth' - 1, by omega⟩
    unfold walkWithin
    refine AgreesUnless.bindState (.refl _) fun node state => ?_
    refine AgreesUnless.bindState (.refl _) fun step state => ?_
    cases step with
    | stop => exact .refl _
    | skip => exact .refl _
    | descend =>
      have hchild (child : NodeId) (state : σ) :
          AgreesUnless (· = .tooDeep) (graph.walkWithin visitor depth child state)
            (graph.walkWithin visitor depth' child state) := ih (Nat.le_of_succ_le_succ h) state
      simp only [Node.visitChildren_eq_allM]
      refine (AgreesUnless.allStateM (fun child _ => hchild child) state).bindState ?_
      exact fun finished state => .refl _

theorem isAnyRangeWithin_agrees (h : depth ≤ depth') :
    AgreesUnless (· = .tooDeep) (graph.isAnyRangeWithin depth id)
      (graph.isAnyRangeWithin depth' id) := by
  induction depth generalizing depth' id with
  | zero => exact .inl ⟨_, rfl, rfl⟩
  | succ depth ih =>
    obtain ⟨depth', rfl⟩ : ∃ n, depth' = n + 1 := ⟨depth' - 1, by omega⟩
    unfold isAnyRangeWithin
    refine (AgreesUnless.refl _).bind fun node _ => ?_
    have hinner : ∀ inner, AgreesUnless (· = .tooDeep) (graph.isAnyRangeWithin depth inner)
        (graph.isAnyRangeWithin depth' inner) := fun _ => ih (Nat.le_of_succ_le_succ h)
    split
    · exact .refl _
    · split
      · exact hinner _
      · exact .refl _
    · split
      · exact hinner _
      · exact .refl _
    · exact .refl _

theorem configPathWithin?_agrees (h : depth ≤ depth') :
    AgreesUnless (· = .tooDeep) (graph.configPathWithin? depth id)
      (graph.configPathWithin? depth' id) := by
  induction depth generalizing depth' id with
  | zero => exact .inl ⟨_, rfl, rfl⟩
  | succ depth ih =>
    obtain ⟨depth', rfl⟩ : ∃ n, depth' = n + 1 := ⟨depth' - 1, by omega⟩
    unfold configPathWithin?
    refine (AgreesUnless.refl _).bind fun node _ => ?_
    split
    · exact .refl _
    · split
      · exact .refl _
      · exact (ih (Nat.le_of_succ_le_succ h)).bind fun _ _ => .refl _
    · exact .refl _

end depth

section endless
variable (hclosed : graph.Closed) {visitor : Visitor σ} (hvisitor : visitor.Descends)
include hclosed hvisitor

theorem walkWithin_of_descends {state : σ} (hid : graph.HasNode id)
    (h : graph.DescendsWithin depth id) :
    Returns (graph.walkWithin visitor depth id state) fun r => r.1 = true := by
  induction depth generalizing id state with
  | zero => cases h
  | succ depth ih =>
    unfold walkWithin
    refine ((node_returns hid).liftState state).bindState fun node before => ?_
    rintro ⟨hnode, rfl⟩
    refine Returns.bindState (P := fun r => r.1 = .descend)
      ⟨_, rfl, hvisitor id node before⟩ fun step entered hstep => ?_
    subst hstep
    have hwalk : Returns (node.visitChildren (graph.walkWithin visitor depth) entered)
        fun r => r.1 = true := by
      rw [Node.visitChildren_eq_allM]
      refine Returns.allStateM_eq_true (fun child hchild state => ?_) entered
      have hstep : graph.Child id child := ⟨node, hnode, hchild⟩
      exact ih (hclosed.hasNode_of_child hstep) (h child hstep)
    refine hwalk.bindState fun finished left hfinished => ?_
    subst hfinished
    exact .pure rfl

theorem walkWithin_of_not_descends {state : σ} (hid : graph.HasNode id)
    (h : ¬ graph.DescendsWithin depth id) :
    graph.walkWithin visitor depth id state = .error .tooDeep := by
  induction depth generalizing id state with
  | zero => rfl
  | succ depth ih =>
    obtain ⟨node, hnode⟩ := node?_of_hasNode hid
    have hchild : ∃ child, graph.Child id child ∧ ¬ graph.DescendsWithin depth child := by
      by_contra hnone
      push Not at hnone
      exact h hnone
    -- The walk of a child ends, or is too deep as well; one of them is too deep.
    have hwalk (state : σ) :
        node.visitChildren (graph.walkWithin visitor depth) state = .error .tooDeep := by
      rw [Node.visitChildren_eq_allM]
      refine allStateM_eq_error (fun child hmem state => ?_) ?_ state
      · have hhas := hclosed.hasNode_of_child ⟨node, hnode, hmem⟩
        by_cases hdescends : graph.DescendsWithin depth child
        · exact .inr (walkWithin_of_descends hclosed hvisitor hhas hdescends)
        · exact .inl (ih hhas hdescends)
      · obtain ⟨child, hstep, hdescends⟩ := hchild
        have hhas := hclosed.hasNode_of_child hstep
        obtain ⟨node', hnode', hmem⟩ := hstep
        cases hnode.symm.trans hnode'
        exact ⟨child, hmem, fun state => ih hhas hdescends⟩
    have hread : (liftM (graph.node id) : StateT σ (Except QueryError) Node) state =
        .ok (node, state) := by
      rw [Graph.node, hnode]
      rfl
    rcases henter : visitor.enter id node state with ⟨step, entered⟩
    have hstep : step = .descend := by simpa [henter] using hvisitor id node state
    subst hstep
    unfold walkWithin
    refine bindState_eq_error (.inr ⟨node, state, hread, ?_⟩)
    refine bindState_eq_error (.inr ⟨.descend, entered, congrArg Except.ok henter, ?_⟩)
    exact bindState_eq_error (.inl (hwalk entered))

end endless

/-- Whatever goes down from a node comes to an end, and goes no deeper than there are nodes. -/
structure EndsBelow (graph : Graph) (id : NodeId) : Prop where
  path : ∀ path, List.IsChain graph.Child (id :: path) → path.length < graph.nodes.size
  walk : ∀ (σ : Type) (visitor : Visitor σ) (state : σ),
    EndsWithin graph.nodes.size (fun depth => graph.walkWithin visitor depth id state)
      (graph.walk visitor id state)
  preorder : ∃ ids, graph.preorder id = .ok ids
  postorder : ∃ ids, graph.postorder id = .ok ids
  isAnyRange : EndsWithin graph.nodes.size (fun depth => graph.isAnyRangeWithin depth id)
    (graph.isAnyRange id)
  configPath? : EndsWithin graph.nodes.size (fun depth => graph.configPathWithin? depth id)
    (graph.configPath? id)
  formatsInOrder : id = root → EndsWithin graph.nodes.size graph.formatsWithin graph.formatsInOrder

/-- There are paths of every length down from a node, and a walk that always descends has no end. -/
structure EndlessBelow (graph : Graph) (id : NodeId) : Prop where
  path : ∀ length, ∃ path, List.IsChain graph.Child (id :: path) ∧ path.length = length
  walk : ∀ (σ : Type) (visitor : Visitor σ) (state : σ), visitor.Descends →
    ∀ depth, graph.walkWithin visitor depth id state = .error .tooDeep

section search
variable (hclosed : graph.Closed) (hid : graph.HasNode id)
include hclosed hid

theorem endsBelow_of_findCycle (h : graph.findCycle id = .ok none) : graph.EndsBelow id := by
  have hdescends : graph.DescendsWithin graph.nodes.size id :=
    (acyclic_of_findCycle hclosed hid h).descendsWithin hclosed (.start hid) (Nat.le_refl _)
  have hlimit : graph.nodes.size ≤ graph.depthLimit := Nat.le_succ _
  refine ⟨descendsWithin_iff.1 hdescends, ?_, ?_, ?_, ?_, ?_, ?_⟩
  · intro σ visitor state
    have hkeeps : visitor.Keeps graph fun _ => True :=
      ⟨fun _ _ _ _ _ => trivial, fun _ _ _ _ _ => trivial⟩
    have hwalk : Returns (graph.walkWithin visitor graph.nodes.size id state) fun _ => True :=
      walkWithin_returns hclosed hkeeps hid hdescends trivial
    exact .of_agrees (fun _ _ hle => walkWithin_agrees visitor hle state) hwalk hlimit
  · obtain ⟨ids, hids, -⟩ := preorder_returns hclosed hid h
    exact ⟨ids, hids⟩
  · obtain ⟨ids, hids, -⟩ := postorder_returns hclosed hid h
    exact ⟨ids, hids⟩
  · have hrange := isAnyRangeWithin_returns hclosed hid hdescends
    exact .of_agrees (fun _ _ => isAnyRangeWithin_agrees) hrange hlimit
  · have hpath := configPathWithin?_returns hclosed hid hdescends
    exact .of_agrees (fun _ _ => configPathWithin?_agrees) hpath hlimit
  · rintro rfl
    have hformats := formatsWithin_returns hclosed h (Nat.le_refl _)
    exact .of_agrees (fun _ _ => formatsWithin_agrees) hformats hlimit

theorem endlessBelow_of_findCycle {node : NodeId} (h : graph.findCycle id = .ok (some node)) :
    graph.EndlessBelow id := by
  have hcyclic : ¬ graph.Acyclic id := by
    obtain ⟨found, hfound, hanswer⟩ := findCycle_returns hclosed hid
    cases h.symm.trans hfound
    obtain ⟨hreaches, hcycle⟩ := hanswer.2 node rfl
    intro hacyclic
    exact hacyclic node hreaches hcycle
  refine ⟨exists_path_of_not_acyclic hcyclic, fun σ visitor state hvisitor depth => ?_⟩
  exact walkWithin_of_not_descends hclosed hvisitor hid
    (not_descendsWithin_of_not_acyclic hcyclic depth)

end search

/-- The search for a cycle has an answer, which tells whether what goes down from a node ends. -/
theorem findCycle_decides_end (h : graph.Assembled) (hid : graph.HasNode id) :
    (∃ found, graph.findCycle id = .ok found) ∧
      (graph.findCycle id = .ok none → graph.EndsBelow id) ∧
      ∀ node, graph.findCycle id = .ok (some node) → graph.EndlessBelow id := by
  refine ⟨?_, endsBelow_of_findCycle h.closed hid, fun node => endlessBelow_of_findCycle h.closed hid⟩
  obtain ⟨found, hfound, -⟩ := findCycle_returns h.closed hid
  exact ⟨found, hfound⟩

end Graph

/-- A program with a range in parentheses. It is among its own elements if `again` is set. -/
def RawGraph.enclosing (again : Bool) : RawGraph where
  nodes := [
    ⟨"program", {}, [("elements", .arr (if again then [.nat 2, .nat 0] else [.nat 2, .nat 1]))]⟩,
    ⟨"range", {}, []⟩,
    ⟨"paren", {}, [("expr", .nat 1)]⟩]
  scopes := []

theorem Graph.findCycle_decides_end_enclosing :
    (∃ graph, (RawGraph.enclosing false).link false = .ok graph ∧
      graph.findCycle root = .ok none ∧ graph.EndsBelow root) ∧
      ∃ graph, (RawGraph.enclosing true).link false = .ok graph ∧
        graph.findCycle root = .ok (some root) ∧ graph.EndlessBelow root := by
  constructor
  · obtain ⟨graph, h, hcycle, hroot⟩ : ∃ graph, (RawGraph.enclosing false).link false = .ok graph ∧
        graph.findCycle root = .ok none ∧ graph.HasNode root := ⟨_, rfl, rfl, by decide⟩
    exact ⟨graph, h, hcycle, (findCycle_decides_end (.raw h) hroot).2.1 hcycle⟩
  · obtain ⟨graph, h, hcycle, hroot⟩ : ∃ graph, (RawGraph.enclosing true).link false = .ok graph ∧
        graph.findCycle root = .ok (some root) ∧ graph.HasNode root := ⟨_, rfl, rfl, by decide⟩
    exact ⟨graph, h, hcycle, (findCycle_decides_end (.raw h) hroot).2.2 root hcycle⟩

end FormatGraph
