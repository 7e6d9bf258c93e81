import FormatGraph.Graph.Walk

/-! Questions about expressions. -/

namespace FormatGraph.Graph

def isAnyRangeWithin (graph : Graph) : Nat → NodeId → Except QueryError Bool
  | 0, _ => .error .tooDeep
  | depth + 1, id => do
    let node ← graph.node id
    match node.kind with
    | .range => return (node.ref? "start").isNone && (node.ref? "end").isNone
    | .identity | .paren =>
      match node.ref? "expr" with
      | some inner => graph.isAnyRangeWithin depth inner
      | none => return false
    | _ => return false

def isAnyRange (graph : Graph) (id : NodeId) : Except QueryError Bool :=
  graph.isAnyRangeWithin graph.depthLimit id

def configPathWithin? (graph : Graph) : Nat → NodeId → Except QueryError (Option String)
  | 0, _ => .error .tooDeep
  | depth + 1, id => do
    let node ← graph.node id
    match node.kind with
    | .specialLiteral => return some (node.word "kind")
    | .memberAccess =>
      match node.ref? "target" with
      | none => return none
      | some target =>
        match ← graph.configPathWithin? depth target with
        | none => return none
        | some path => return do
          let name ← graph.spelledName? (← node.ref? "member")
          return path ++ "." ++ name
    | _ => return none

/-- The path of members that starts at a special literal, with points between. -/
def configPath? (graph : Graph) (id : NodeId) : Except QueryError (Option String) :=
  graph.configPathWithin? graph.depthLimit id

end FormatGraph.Graph
