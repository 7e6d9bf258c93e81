import FormatGraph.Graph

/-! Members: fields, formats, enumerations and other declarations. -/

namespace FormatGraph.Graph

def membersAmong (graph : Graph) (ids : List NodeId) : Except QueryError (List NodeId) :=
  ids.filterM fun id => return (← graph.kindOf id).isIn .member

def bodyStruct? (graph : Graph) (node : Node) : Option NodeId := do
  if node.kind = .format ∨ node.kind = .state then
    (← graph.ofKind? .indentBlock (← node.ref? "body")).ref? "struct_type"
  else none

/-- A field stands directly in the body of the format or state that it belongs to, and not in a
nested structure. -/
def isOnNamedStruct (graph : Graph) (id : NodeId) : Except QueryError Bool := do
  match graph.ofKind? .field id with
  | none => return false
  | some field =>
    match field.ref? "belong" with
    | none => return false
    | some owner =>
      let struct := graph.bodyStruct? (← graph.node owner)
      return struct.isSome && struct = field.ref? "belong_struct"

end FormatGraph.Graph
