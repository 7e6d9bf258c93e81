import FormatGraph.Proofs.Graph.Ends

/-! The answer of the search for a cycle. The search ends, whatever the graph looks like. A node
that it finds is its own descendant, and where it finds none there is none. -/

namespace FormatGraph

open Relation

namespace CycleSearch

variable {graph : Graph} {first : NodeId} {search : CycleSearch} {steps steps' : Nat}

theorem run_agrees (h : steps ≤ steps') :
    AgreesUnless (· = .tooDeep) (search.run graph steps) (search.run graph steps') := by
  induction steps generalizing steps' search with
  | zero => exact .inl ⟨_, rfl, rfl⟩
  | succ steps ih =>
    obtain ⟨steps', rfl⟩ : ∃ n, steps' = n + 1 := ⟨steps' - 1, by omega⟩
    refine AgreesUnless.bind (.refl _) fun result _ => ?_
    cases result with
    | inl next => exact ih (Nat.le_of_succ_le_succ h)
    | inr found => exact .refl _

inductive Passes (graph : Graph) (first : NodeId) : CycleSearch → Prop where
  | start {search : CycleSearch} (h : start graph first = .ok search) : Passes graph first search
  | step {search next : CycleSearch} (h : Passes graph first search)
      (hstep : search.step graph = .ok (.inl next)) : Passes graph first next

theorem Passes.tracks (h : Passes graph first search) (hfirst : graph.HasNode first) :
    Tracks graph first search := by
  induction h with
  | start h =>
    obtain ⟨search', hstart, htracks, -⟩ := start_returns hfirst
    cases h.symm.trans hstart
    exact htracks
  | step _ hstep ih => exact ih.next (steps_of_step hstep)

end CycleSearch

namespace Graph

variable {graph : Graph} {id : NodeId}

def findCycleWithin (graph : Graph) (id : NodeId) (steps : Nat) :
    Except QueryError (Option NodeId) := do
  let search ← CycleSearch.start graph id
  search.run graph steps

theorem findCycle_endsWithin (hclosed : graph.Closed) (hid : graph.HasNode id) :
    EndsWithin graph.searchLimit (graph.findCycleWithin id) (graph.findCycle id) := by
  refine .of_agrees (fun steps steps' hle => ?_) (findCycle_returns hclosed hid) (Nat.le_refl _)
  exact AgreesUnless.bind (.refl _) fun search _ => CycleSearch.run_agrees hle

/-- The search for a cycle from a node comes to an end. It finds a node that is reached from there
and from itself, or there is no such node. On the way the nodes in progress are those on the stack,
each a child of the one below it, and nodes that are done lead to such nodes only. -/
theorem findCycle_exact (h : graph.Assembled) (hid : graph.HasNode id) :
    EndsWithin graph.searchLimit (graph.findCycleWithin id) (graph.findCycle id) ∧
      (∀ node, graph.findCycle id = .ok (some node) →
        ReflTransGen graph.Child id node ∧ TransGen graph.Child node node) ∧
      (graph.findCycle id = .ok none →
        ∀ node, ReflTransGen graph.Child id node → ¬ TransGen graph.Child node node) ∧
      ∀ search, CycleSearch.Passes graph id search →
        (∀ node : NodeId, search.marks[node.index]? = some .inProgress ↔ node ∈ search.path) ∧
        List.IsChain (fun node parent => graph.Child parent node) search.path ∧
        search.path.Nodup ∧ search.path.length ≤ graph.nodes.size ∧
        ∀ node, search.IsDone node → ∀ child, graph.Child node child → search.IsDone child := by
  refine ⟨findCycle_endsWithin h.closed hid, fun node hfound => ?_,
    acyclic_of_findCycle h.closed hid, fun search hpasses => ?_⟩
  · obtain ⟨found, hanswered, hanswer⟩ := findCycle_returns h.closed hid
    cases hfound.symm.trans hanswered
    exact hanswer.2 node rfl
  · have htracks := hpasses.tracks hid
    have hwithin : ∀ node ∈ search.path, graph.HasNode node := by
      intro node hnode
      rw [HasNode, ← htracks.size]
      exact CycleSearch.lt_of_mark ((htracks.inProgress node).2 hnode)
    exact ⟨htracks.inProgress, htracks.stacked.chain, htracks.nodup,
      Handle.length_le htracks.nodup hwithin, htracks.settled⟩

end Graph

def RawGraph.tangled : RawGraph where
  nodes := [
    ⟨"program", {}, [("elements", .arr [.nat 3, .nat 3, .nat 1])]⟩,
    ⟨"paren", {}, [("expr", .nat 2)]⟩,
    ⟨"paren", {}, [("expr", .nat 1)]⟩,
    ⟨"range", {}, []⟩]
  scopes := []

/-- The cycle is found from the root, which is not on it, when the search has come down to both
expressions. Nothing is found from the range. -/
theorem Graph.findCycle_exact_tangled :
    ∃ graph, RawGraph.tangled.link false = .ok graph ∧
      (graph.findCycle root = .ok (some ⟨1⟩) ∧
        ReflTransGen graph.Child root ⟨1⟩ ∧ TransGen graph.Child ⟨1⟩ ⟨1⟩) ∧
      (graph.findCycle ⟨3⟩ = .ok none ∧
        ∀ node, ReflTransGen graph.Child ⟨3⟩ node → ¬ TransGen graph.Child node node) ∧
      ∃ search, CycleSearch.Passes graph root search ∧ search.path = [⟨2⟩, ⟨1⟩, root] ∧
        (∀ node : NodeId, search.marks[node.index]? = some .inProgress ↔ node ∈ search.path) ∧
        search.IsDone ⟨3⟩ := by
  obtain ⟨graph, h, hroot, hrange, hfound, hnone, search, hpasses, hpath, hdone⟩ :
      ∃ graph, RawGraph.tangled.link false = .ok graph ∧ graph.HasNode root ∧ graph.HasNode ⟨3⟩ ∧
        graph.findCycle root = .ok (some ⟨1⟩) ∧ graph.findCycle ⟨3⟩ = .ok none ∧
        ∃ search, CycleSearch.Passes graph root search ∧ search.path = [⟨2⟩, ⟨1⟩, root] ∧
          search.IsDone ⟨3⟩ :=
    ⟨_, rfl, by decide, by decide, rfl, rfl, _,
      .step (.step (.step (.step (.step (.start rfl) rfl) rfl) rfl) rfl) rfl, rfl, rfl⟩
  obtain ⟨-, hcycle, -, hmarks⟩ := findCycle_exact (.raw h) hroot
  obtain ⟨-, -, hacyclic, -⟩ := findCycle_exact (.raw h) hrange
  exact ⟨graph, h, ⟨hfound, hcycle ⟨1⟩ hfound⟩, ⟨hnone, hacyclic hnone⟩, search, hpasses, hpath,
    (hmarks search hpasses).1, hdone⟩

end FormatGraph
