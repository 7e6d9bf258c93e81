import FormatGraph.Proofs.Link.Assembly

/-! A graph that was linked is the graph that its raw lists describe, node by node and field by
field. -/

namespace FormatGraph.RawGraph

/-- The references of a linked graph are the numbers that its bodies and raw scopes have, and the
nodes that they name are of the kinds that were asked for. -/
theorem link_faithful {raw : RawGraph} {strict : Bool} {graph : Graph}
    (hraw : raw.Addressable) (h : raw.link strict = .ok graph) :
    graph.nodes.size = raw.nodes.length ∧ graph.scopes.size = raw.scopes.length ∧
      (∃ program, graph.node? Graph.root = some program ∧ program.kind = .program) ∧
      List.Forall₂ (graph.context strict).NodeFrom raw.nodes graph.nodes.toList ∧
      List.Forall₂ (graph.context strict).ScopeFrom raw.scopes graph.scopes.toList := by
  obtain ⟨kinds, nodes, scopes, hparts, rfl, hclosed⟩ := exists_parts_of_link_eq_ok h
  have hnodesFrom := (hparts.nodesFrom hraw).1
  have hscopesFrom := hparts.scopesFrom hraw
  rw [hparts.context_eq hraw]
  exact ⟨hnodesFrom.length_eq.symm, hscopesFrom.length_eq.symm, hclosed.root, hnodesFrom,
    hscopesFrom⟩

def forward : RawGraph where
  nodes := [
    ⟨"program", {}, [("elements", .arr [.nat 1]), ("global_scope", .nat 0)]⟩,
    ⟨"ident", {}, [("base", .nat 1), ("ident", .str "x"), ("scope", .nat 0)]⟩]
  scopes := [{ idents := [1], owner := some 0 }]

theorem link_faithful_forward : ∃ graph, forward.link false = .ok graph ∧
    List.Forall₂ (graph.context false).NodeFrom forward.nodes graph.nodes.toList := by
  obtain ⟨graph, h⟩ : ∃ graph, forward.link false = .ok graph := ⟨_, rfl⟩
  have hfaithful := link_faithful ⟨by decide, by decide⟩ h
  exact ⟨graph, h, hfaithful.2.2.2.1⟩

end FormatGraph.RawGraph
