import FormatGraph.Command.Outcome
import FormatGraph.Graph.Cycle
import FormatGraph.Load

/-! Graphs for commands, which walk them. -/

namespace FormatGraph

def QueryError.message : QueryError → String
  | .noNode id => "no node " ++ id.text
  | .noScope id => "no scope " ++ toString id.index
  | .tooDeep => "the graph is too deep"
  | .noProgram kind => "the root is a " ++ kind.name

def Failure.ofQuery (error : QueryError) : Failure := ⟨error.message, []⟩

namespace Graph

def walkable (path : String) (graph : Graph) : Except Failure Graph := do
  match ← (graph.findCycle root).mapError Failure.ofQuery with
  | none => return graph
  | some id =>
    let kind ← (graph.kindOf id).mapError Failure.ofQuery
    let finding := kind.name ++ " " ++ id.text ++ " is its own descendant"
    throw ⟨"Failed to load " ++ path ++ ": " ++ finding, []⟩

def walkableOfFile {m : Type → Type} [Monad m] [Files m] (strict : Bool) (path : String) :
    m (Except Failure Graph) := do
  match ← ofFile strict path with
  | .ok (_, graph) => return graph.walkable path
  | .error error => return .error ⟨"Failed to load " ++ path, error.message :: error.causes⟩

end Graph

end FormatGraph
