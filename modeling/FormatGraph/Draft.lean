import FormatGraph.Graph
import FormatGraph.LinkError

/-! Graphs in the making. Nodes and scopes are added at the end and may be changed; a draft that is
finished becomes a graph if its first node is a program and its children and scope links are within
it. -/

namespace FormatGraph

structure Draft where
  nodes : Array Node := #[]
  scopes : Array Scope := #[]

namespace Draft

def push (draft : Draft) (node : Node) : NodeId × Draft :=
  (.ofIndex draft.nodes.size, { draft with nodes := draft.nodes.push node })

def pushScope (draft : Draft) (scope : Scope) : ScopeId × Draft :=
  (.ofIndex draft.scopes.size, { draft with scopes := draft.scopes.push scope })

/-- Change a node; a handle that names none changes nothing. -/
def modifyNode (draft : Draft) (id : NodeId) (change : Node → Node) : Draft :=
  { draft with nodes := draft.nodes.modify id.index change }

def modifyScope (draft : Draft) (id : ScopeId) (change : Scope → Scope) : Draft :=
  { draft with scopes := draft.scopes.modify id.index change }

def childLinks (draft : Draft) : List (Site × NodeId) :=
  draft.nodes.toList.zipIdx.flatMap fun (node, index) =>
    node.children.map fun child => (⟨.node node.kind, "child", index⟩, child)

inductive Target where
  | node (id : NodeId)
  | scope (id : ScopeId)
  deriving DecidableEq, Repr

def linksOf (scope : Scope) : List (String × Target) :=
  scope.prev.toList.map (("prev", .scope ·)) ++ scope.next.toList.map (("next", .scope ·)) ++
    scope.branch.toList.map (("branch", .scope ·)) ++ scope.idents.map (("ident", .node ·)) ++
    scope.owner.toList.map (("owner", .node ·))

def scopeLinks (draft : Draft) : List (Site × Target) :=
  draft.scopes.toList.zipIdx.flatMap fun (scope, index) =>
    (linksOf scope).map fun (field, target) => (⟨.scope, field, index⟩, target)

def checkWithin (site : Site) (handle : UInt32) (size : Nat) : Except LinkError Unit :=
  if handle.toNat < size then .ok () else .error (.dangling site handle.toUInt64 size)

def checkTarget (draft : Draft) (site : Site) : Target → Except LinkError Unit
  | .node id => checkWithin site id.val draft.nodes.size
  | .scope id => checkWithin site id.val draft.scopes.size

def checkHandles (draft : Draft) : Except LinkError Unit := do
  draft.childLinks.forM fun (site, child) => draft.checkTarget site (.node child)
  draft.scopeLinks.forM fun (site, target) => draft.checkTarget site target

def hasProgram (draft : Draft) : Bool := draft.nodes[0]?.any (·.kind = .program)

def finish (draft : Draft) : Except LinkError Graph :=
  if draft.hasProgram then do
    draft.checkHandles
    return ⟨draft.nodes, draft.scopes⟩
  else .error .missingRoot

end Draft

end FormatGraph
