import FormatGraph.Handle

/-! Lexical scopes. -/

namespace FormatGraph

/-- A scope. Scopes in sequence are chained by `prev` and `next`; `branch` opens another chain
beside this one. -/
structure Scope where
  prev : Option ScopeId := none
  next : Option ScopeId := none
  branch : Option ScopeId := none
  idents : List NodeId := []
  owner : Option NodeId := none
  isBranchRoot : Bool := false
  deriving DecidableEq, Repr, Inhabited

end FormatGraph
