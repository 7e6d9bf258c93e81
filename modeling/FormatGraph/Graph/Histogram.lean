import FormatGraph.Graph.NodeSet
import FormatGraph.Graph.Walk

/-! How many nodes of each kind there are. -/

namespace FormatGraph

structure Census where
  seen : NodeSet
  kinds : Array Kind := #[]

/-- Counts a node and goes on below it only when it sees the node for the first time. -/
def Visitor.counting : Visitor Census where
  enter id node census :=
    if census.seen.contains id then (.skip, census)
    else (.descend, ⟨census.seen.insert id, census.kinds.push node.kind⟩)

namespace Graph

def histogram (graph : Graph) : Except QueryError (List (Kind × Nat)) := do
  let (_, census) ← graph.walk .counting root { seen := .empty graph.nodes.size }
  return Tag.list.filterMap fun tag => do
    let kind ← tag.kind?
    let count := census.kinds.toList.count kind
    if count = 0 then none else some (kind, count)

end Graph

end FormatGraph
