import FormatGraph.Node
import FormatGraph.Scope

/-! Graphs of nodes and scopes. A question about a handle that names nothing has no answer but an
error. -/

namespace FormatGraph

structure Graph where
  nodes : Array Node
  scopes : Array Scope

inductive QueryError where
  | noNode (id : NodeId)
  | noScope (id : ScopeId)
  /-- A path that is longer than there are nodes or scopes. -/
  | tooDeep
  | noProgram (kind : Kind)
  deriving DecidableEq, Repr

namespace Graph

def root : NodeId := ⟨0⟩

def node? (graph : Graph) (id : NodeId) : Option Node := graph.nodes[id.index]?

def scope? (graph : Graph) (id : ScopeId) : Option Scope := graph.scopes[id.index]?

def node (graph : Graph) (id : NodeId) : Except QueryError Node :=
  match graph.node? id with
  | some node => .ok node
  | none => .error (.noNode id)

def scope (graph : Graph) (id : ScopeId) : Except QueryError Scope :=
  match graph.scope? id with
  | some scope => .ok scope
  | none => .error (.noScope id)

def ofKind? (graph : Graph) (kind : Kind) (id : NodeId) : Option Node :=
  (graph.node? id).filter (·.kind = kind)

def program (graph : Graph) : Except QueryError Node := do
  let node ← graph.node root
  if node.kind = .program then return node else throw (.noProgram node.kind)

def kindOf (graph : Graph) (id : NodeId) : Except QueryError Kind :=
  return (← graph.node id).kind

def children (graph : Graph) (id : NodeId) : Except QueryError (List NodeId) :=
  return (← graph.node id).children

def scopeIds (graph : Graph) : List ScopeId := (List.range graph.scopes.size).map .ofIndex

def spelledName? (graph : Graph) (id : NodeId) : Option String :=
  (graph.ofKind? .ident id).map (·.text "ident")

def nameOf? (graph : Graph) (id : NodeId) : Option String := do
  let node ← graph.node? id
  if node.kind = .ident then some (node.text "ident")
  else if node.kind.isIn .member then graph.spelledName? (← node.ref? "ident")
  else none

end Graph

end FormatGraph
