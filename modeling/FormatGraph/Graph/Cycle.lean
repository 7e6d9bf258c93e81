import FormatGraph.Graph

/-! Cycles of children. A graph may have nodes that are their own descendants, and cannot be walked
then. They are searched for with a stack of the nodes on the way down. -/

namespace FormatGraph

inductive Mark where
  | unvisited
  | inProgress
  | done
  deriving DecidableEq, Repr

/-- A node on the way down, with the children that are still to be looked at. -/
structure Frame where
  id : NodeId
  children : List NodeId
  deriving DecidableEq, Repr

structure CycleSearch where
  marks : Array Mark
  stack : List Frame
  deriving DecidableEq, Repr

namespace CycleSearch

def enter (graph : Graph) (search : CycleSearch) (id : NodeId) : Except QueryError CycleSearch := do
  let children ← graph.children id
  return ⟨search.marks.setIfInBounds id.index .inProgress, ⟨id, children⟩ :: search.stack⟩

def start (graph : Graph) (id : NodeId) : Except QueryError CycleSearch :=
  enter graph ⟨.replicate graph.nodes.size .unvisited, []⟩ id

def step (graph : Graph) (search : CycleSearch) :
    Except QueryError (CycleSearch ⊕ Option NodeId) := do
  match search.stack with
  | [] => return .inr none
  | ⟨id, []⟩ :: rest => return .inl ⟨search.marks.setIfInBounds id.index .done, rest⟩
  | ⟨id, child :: children⟩ :: rest =>
    let stack := ⟨id, children⟩ :: rest
    match search.marks[child.index]? with
    | none => throw (.noNode child)
    | some .inProgress => return .inr (some child)
    | some .done => return .inl ⟨search.marks, stack⟩
    | some .unvisited => return .inl (← enter graph ⟨search.marks, stack⟩ child)

def run (graph : Graph) : Nat → CycleSearch → Except QueryError (Option NodeId)
  | 0, _ => throw .tooDeep
  | steps + 1, search => do
    match ← search.step graph with
    | .inl next => run graph steps next
    | .inr found => return found

end CycleSearch

namespace Graph

/-- More steps than a search takes: every node is left once, and each of its children is looked at
once. -/
def searchLimit (graph : Graph) : Nat :=
  graph.nodes.toList.foldl (fun steps node => steps + (node.children.length + 1)) 1

def findCycle (graph : Graph) (id : NodeId) : Except QueryError (Option NodeId) := do
  let search ← CycleSearch.start graph id
  search.run graph graph.searchLimit

end Graph

end FormatGraph
