import FormatGraph.Graph

/-! Bases of identifiers. An identifier that refers to another, directly or through a member access,
leads to the one that defines it. -/

namespace FormatGraph.Graph

def baseStep (graph : Graph) (id : NodeId) : Except QueryError (Option (NodeId × Bool)) := do
  match (graph.ofKind? .ident id).bind (·.ref? "base") with
  | none => return none
  | some base =>
    let node ← graph.node base
    match node.kind with
    | .ident => return some (base, false)
    | .memberAccess => return (node.ref? "base").map (·, true)
    | _ => return none

/-- Follow steps from an identifier. Of steps that go in circles, the end is the first identifier
that comes again. -/
def baseFrom (graph : Graph) : Nat → List NodeId → NodeId → Bool → Except QueryError (NodeId × Bool)
  | 0, _, _, _ => .error .tooDeep
  | depth + 1, seen, id, viaMember => do
    if id ∈ seen then return (id, viaMember)
    match ← graph.baseStep id with
    | none => return (id, viaMember)
    | some (next, throughMember) =>
      graph.baseFrom depth (id :: seen) next (viaMember || throughMember)

def baseOf (graph : Graph) (id : NodeId) : Except QueryError (NodeId × Bool) :=
  graph.baseFrom (graph.nodes.size + 2) [] id false

end FormatGraph.Graph
