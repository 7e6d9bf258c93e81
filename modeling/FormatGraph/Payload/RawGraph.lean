import FormatGraph.Location

/-! Graphs as the front end writes them: flat lists of nodes and scopes that refer to each other by
position. -/

namespace FormatGraph

structure RawNode where
  tag : String
  loc : Loc
  body : Json.Object

instance : Shaped RawNode where
  shape :=
    .record "RawNode" (.cons "node_type" .text (.cons "loc" (Shaped.shape Loc)
      (.cons "body" .object .nil)))
  ofCarrier := fun (tag, loc, body, ()) => ⟨tag, Shaped.ofCarrier loc, body⟩
  toCarrier node := (node.tag, Shaped.toCarrier node.loc, node.body, ())

structure RawScope where
  prev : Option UInt64 := none
  next : Option UInt64 := none
  branch : Option UInt64 := none
  idents : List UInt64 := []
  owner : Option UInt64 := none
  isBranchRoot : Bool := false
  deriving DecidableEq, Repr

instance : Shaped RawScope where
  shape :=
    .record "RawScope" (.cons "prev" (.optional .count) (.cons "next" (.optional .count)
      (.cons "branch" (.optional .count) (.cons "ident" (.list .count)
        (.cons "owner" (.optional .count) (.cons "branch_root" .flag .nil))))))
  ofCarrier := fun (prev, next, branch, idents, owner, isBranchRoot, ()) =>
    ⟨prev, next, branch, idents, owner, isBranchRoot⟩
  toCarrier scope :=
    (scope.prev, scope.next, scope.branch, scope.idents, scope.owner, scope.isBranchRoot, ())

structure RawGraph where
  nodes : List RawNode
  scopes : List RawScope

instance : Shaped RawGraph where
  shape :=
    .record "JsonAst" (.cons "node" (.list (Shaped.shape RawNode))
      (.cons "scope" (.list (Shaped.shape RawScope)) .nil))
  ofCarrier := fun (nodes, scopes, ()) => ⟨nodes.map Shaped.ofCarrier, scopes.map Shaped.ofCarrier⟩
  toCarrier graph := (graph.nodes.map Shaped.toCarrier, graph.scopes.map Shaped.toCarrier, ())

end FormatGraph
