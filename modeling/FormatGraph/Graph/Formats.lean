import FormatGraph.Graph.Search
import FormatGraph.Graph.Walk

/-! The order of formats. A format depends on another through a type identifier whose type is the
structure of the other, and stands after it. -/

namespace FormatGraph.Graph

def dependedFormat? (graph : Graph) (id : NodeId) : Option NodeId := do
  let type ← (← graph.ofKind? .identType id).ref? "base"
  let format ← (← graph.ofKind? .structType type).ref? "base"
  let _ ← graph.ofKind? .format format
  return format

def dependencies (graph : Graph) (format : NodeId) : List NodeId :=
  match graph.ofKind? .format format with
  | some node => (node.refs "depends").filterMap graph.dependedFormat?
  | none => []

def dependenciesAmong (graph : Graph) (formats : NodeSet) (format : NodeId) : List NodeId :=
  if formats.contains format then graph.dependencies format else []

def reportedFormats (graph : Graph) : Except QueryError (List NodeId) := do
  return (← graph.postorder root).filter fun id => (graph.ofKind? .format id).isSome

def formatsWithin (graph : Graph) (depth : Nat) : Except QueryError (List NodeId) := do
  let formats ← graph.reportedFormats
  let next := graph.dependenciesAmong (formats.foldl NodeSet.insert (.empty graph.nodes.size))
  let sorted := formats.mergeSort fun f g => (next f).length ≤ (next g).length
  Search.run graph.nodes.size depth (fun format => return next format) sorted

/-- The formats below the root and those they depend on, dependencies first. Formats with fewer
dependencies come earlier where there is a choice. A format that is not below the root is listed,
but its dependencies are not followed. -/
def formatsInOrder (graph : Graph) : Except QueryError (List NodeId) :=
  graph.formatsWithin graph.depthLimit

end FormatGraph.Graph
