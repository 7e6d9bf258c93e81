import FormatGraph.Graph
import FormatGraph.Graph.NodeSet

/-! Depth-first search. Each node is visited once, and stands in the order after what it leads
to. -/

namespace FormatGraph

structure Search where
  entered : NodeSet
  order : Array NodeId := #[]

namespace Search

/-- Visit a node and all that it leads to through nodes that have not been entered, down to a
depth. -/
def visit (next : NodeId → Except QueryError (List NodeId)) :
    Nat → Search → NodeId → Except QueryError Search
  | 0, _, _ => .error .tooDeep
  | depth + 1, search, id => do
    if search.entered.contains id then return search
    let search ←
      (← next id).foldlM (visit next depth) { search with entered := search.entered.insert id }
    return { search with order := search.order.push id }

def run (size depth : Nat) (next : NodeId → Except QueryError (List NodeId)) (roots : List NodeId) :
    Except QueryError (List NodeId) := do
  let search ← roots.foldlM (visit next depth) { entered := .empty size }
  return search.order.toList

end Search

end FormatGraph
