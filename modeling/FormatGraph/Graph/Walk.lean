import FormatGraph.Graph

/-! Walks. A walk enters a node, walks its children, and leaves it. A node is walked once for every
path to it, so a walk has no end on a graph in which a node is its own descendant; the depth of a
walk is bounded by the number of nodes. -/

namespace FormatGraph

inductive Step where
  | descend
  | skip
  | stop
  deriving DecidableEq, Repr

structure Visitor (σ : Type) where
  enter : NodeId → Node → σ → Step × σ
  leave : NodeId → Node → σ → σ := fun _ _ state => state

def Visitor.leaving : Visitor (Array NodeId) where
  enter _ _ left := (.descend, left)
  leave id _ left := left.push id

namespace Graph

variable {σ : Type}

/-- Walk from a node down to a depth. The answer is whether the walk was not stopped. -/
def walkWithin (graph : Graph) (visitor : Visitor σ) :
    Nat → NodeId → StateT σ (Except QueryError) Bool
  | 0, _ => throw .tooDeep
  | depth + 1, id => do
    let node ← graph.node id
    match ← modifyGet (visitor.enter id node) with
    | .stop => return false
    | .skip =>
      modify (visitor.leave id node)
      return true
    | .descend =>
      if ← node.visitChildren (walkWithin graph visitor depth) then
        modify (visitor.leave id node)
        return true
      else
        return false

/-- More nodes than a path without repetition can have. -/
def depthLimit (graph : Graph) : Nat := graph.nodes.size + 1

def walk (graph : Graph) (visitor : Visitor σ) (id : NodeId) (state : σ) :
    Except QueryError (Bool × σ) :=
  graph.walkWithin visitor graph.depthLimit id state

def walkWhile (graph : Graph) (visit : NodeId → Node → σ → Bool × σ) (id : NodeId) (state : σ) :
    Except QueryError (Bool × σ) :=
  graph.walk
    { enter := fun id node state =>
        let (goOn, state) := visit id node state
        (if goOn then .descend else .stop, state) }
    id state

def preorder (graph : Graph) (id : NodeId) : Except QueryError (List NodeId) := do
  let (_, entered) ← graph.walkWhile (fun id _ entered => (true, entered.push id)) id #[]
  return entered.toList

def postorder (graph : Graph) (id : NodeId) : Except QueryError (List NodeId) := do
  let (_, left) ← graph.walk .leaving id #[]
  return left.toList

end Graph

end FormatGraph
