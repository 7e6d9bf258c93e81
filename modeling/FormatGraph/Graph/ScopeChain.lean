import FormatGraph.Graph

/-! Chains of scopes, and the names that are visible along them. -/

namespace FormatGraph.Graph

/-- A scope and those after it along `next`, up to one that comes again. -/
def chainFrom (graph : Graph) (next : Scope → Option ScopeId) :
    Nat → List ScopeId → ScopeId → Except QueryError (List ScopeId)
  | 0, _, _ => .error .tooDeep
  | depth + 1, seen, id => do
    match next (← graph.scope id) with
    | none => return [id]
    | some following =>
      if following ∈ id :: seen then return [id]
      else return id :: (← graph.chainFrom next depth (id :: seen) following)

def scopeChain (graph : Graph) (id : ScopeId) : Except QueryError (List ScopeId) :=
  graph.chainFrom Scope.prev (graph.scopes.size + 1) [] id

def branches (graph : Graph) (id : ScopeId) : Except QueryError (List ScopeId) := do
  return (← graph.chainFrom Scope.branch (graph.scopes.size + 1) [] id).tail

def declaration? (graph : Graph) (name : String) (scope : Scope) : Option NodeId :=
  scope.idents.reverse.find? fun id => graph.spelledName? id = some name

/-- The declaration of a name that is visible from a scope: the last one in it, or else in the
nearest scope before it. -/
def lookupIdent (graph : Graph) (id : ScopeId) (name : String) :
    Except QueryError (Option NodeId) := do
  (← graph.scopeChain id).findSomeM? fun scope =>
    return graph.declaration? name (← graph.scope scope)

def scopesOwnedBy (graph : Graph) (owner : NodeId) : List ScopeId :=
  graph.scopeIds.filter fun id => (graph.scope? id).any (·.owner = some owner)

end FormatGraph.Graph
