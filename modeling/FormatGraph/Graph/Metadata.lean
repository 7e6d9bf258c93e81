import FormatGraph.Graph

/-! Settings that a program makes in its text. -/

namespace FormatGraph

structure Setting where
  name : String
  values : List NodeId
  asCall : Bool
  deriving DecidableEq, Repr

namespace Graph

def settingOf (graph : Graph) (node : Node) : Except QueryError Setting := do
  let asCall ← match node.ref? "base" with
    | some base => do pure ((← graph.kindOf base) == .call)
    | none => pure false
  return { name := node.text "name", values := node.refs "values", asCall }

def metadata (graph : Graph) : Except QueryError (List Setting) := do
  let program ← graph.program
  ((program.refs "metadata").filterMap (graph.ofKind? .metadata)).mapM graph.settingOf

end Graph

end FormatGraph
