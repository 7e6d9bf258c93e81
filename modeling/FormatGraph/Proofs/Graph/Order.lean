import FormatGraph.Proofs.Graph.Ends

/-! The formats in the order of their dependencies, for every graph without a cycle of children
below its root. Dependencies may go round in circles: a format stands before those that depend on it
and that it does not lead back to. -/

namespace FormatGraph

open Relation

/-- The search for the order of formats comes to an end, and the order holds the formats below the
root and those they depend on. -/
theorem Graph.formatsInOrder_ordered {graph : Graph} (h : graph.Assembled)
    (hacyclic : graph.Acyclic root) :
    EndsWithin graph.nodes.size graph.formatsWithin graph.formatsInOrder ∧
      Returns graph.formatsInOrder graph.DependencyOrder := by
  have hroot : graph.HasNode root := hasNode_root h.closed
  have hcycle : graph.findCycle root = .ok none := findCycle_eq_ok_none h.closed hroot hacyclic
  refine ⟨(endsBelow_of_findCycle h.closed hroot hcycle).formatsInOrder rfl, ?_⟩
  exact formatsWithin_returns h.closed hcycle (Nat.le_succ _)

/-- Two formats that depend on each other. The first, which is listed twice, also depends on a third
one that is not below the root. -/
def RawGraph.entwined : RawGraph where
  nodes := [
    ⟨"program", {}, [("elements", .arr [.nat 1, .nat 2, .nat 1])]⟩,
    ⟨"format", {}, [("depends", .arr [.nat 5, .nat 6])]⟩,
    ⟨"format", {}, [("depends", .arr [.nat 4])]⟩,
    ⟨"format", {}, []⟩,
    ⟨"ident_type", {}, [("base", .nat 7)]⟩,
    ⟨"ident_type", {}, [("base", .nat 8)]⟩,
    ⟨"ident_type", {}, [("base", .nat 9)]⟩,
    ⟨"struct_type", {}, [("base", .nat 1)]⟩,
    ⟨"struct_type", {}, [("base", .nat 2)]⟩,
    ⟨"struct_type", {}, [("base", .nat 3)]⟩]
  scopes := []

theorem Graph.formatsInOrder_ordered_entwined :
    ∃ graph ids, RawGraph.entwined.link false = .ok graph ∧ graph.Acyclic root ∧
      graph.formatsInOrder = .ok ids ∧ graph.DependencyOrder ids ∧ [⟨3⟩, ⟨1⟩].Sublist ids := by
  obtain ⟨graph, h, hcycle, hformat, hchild, hdepends, hlast⟩ :
      ∃ graph, RawGraph.entwined.link false = .ok graph ∧ graph.findCycle root = .ok none ∧
        (graph.ofKind? .format ⟨1⟩).isSome ∧ ⟨1⟩ ∈ graph.childList root ∧
        ⟨3⟩ ∈ graph.dependencies ⟨1⟩ ∧ graph.dependencies ⟨3⟩ = [] :=
    ⟨_, rfl, rfl, rfl, by decide, by decide, rfl⟩
  have hassembled : graph.Assembled := .raw h
  have hacyclic : graph.Acyclic root :=
    acyclic_of_findCycle hassembled.closed (hasNode_root hassembled.closed) hcycle
  obtain ⟨ids, hids, hordered⟩ := (formatsInOrder_ordered hassembled hacyclic).2
  have hback : ¬ ReflTransGen graph.Requires ⟨3⟩ ⟨1⟩ := by
    intro hreaches
    rcases hreaches.cases_head with heq | ⟨next, hrequires, -⟩
    · cases heq
    · have hnext := mem_dependencies_iff.2 hrequires.2
      rw [hlast] at hnext
      cases hnext
  have hbefore : [⟨3⟩, ⟨1⟩].Sublist ids := by
    refine hordered.before ⟨1⟩ ⟨3⟩ ⟨hformat, ?_⟩ (mem_dependencies_iff.1 hdepends) hback
    exact .single (mem_childList.1 hchild)
  exact ⟨graph, ids, h, hacyclic, hids, hordered, hbefore⟩

end FormatGraph
