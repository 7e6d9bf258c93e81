import FormatGraph.Files.Basic
import FormatGraph.Link
import FormatGraph.Payload.Error
import FormatGraph.Payload.GraphPayload

/-! From payloads to graphs. -/

namespace FormatGraph

inductive LoadError where
  | payload (error : PayloadError)
  | link (error : LinkError)
  | rejected (complaints : Complaints)
  | missingGraph
  | unreadable (path : String) (error : FileError)
  deriving DecidableEq, Repr

def LoadError.message : LoadError → String
  | .payload error => error.report
  | .link error => error.message
  | .rejected complaints => "front end reported errors\n" ++ complaints.message
  | .missingGraph => "payload carries no ast"
  | .unreadable path error => "failed to read " ++ path ++ ": " ++ error.message

def LoadError.causes : LoadError → List String
  | .unreadable _ error => [error.message]
  | .payload _ | .link _ | .rejected _ | .missingGraph => []

namespace GraphPayload

def rawGraph (payload : GraphPayload) : Except LoadError RawGraph :=
  match payload.success, payload.graph?, payload.complaints? with
  | false, _, some complaints => .error (.rejected complaints)
  | _, some graph, _ => .ok graph
  | _, none, _ => .error .missingGraph

def load (strict : Bool) (payload : GraphPayload) : Except LoadError (List String × Graph) := do
  let raw ← payload.rawGraph
  return (payload.files, ← (raw.link strict).mapError .link)

end GraphPayload

namespace Graph

def ofText (strict : Bool) (file text : String) : Except LoadError (List String × Graph) := do
  let payload : GraphPayload ← (Shaped.decodeText file text).mapError .payload
  payload.load strict

def ofValue (strict : Bool) (file : String) (value : Json) :
    Except LoadError (List String × Graph) := do
  let payload : GraphPayload ← (Shaped.decodeValue file value).mapError .payload
  payload.load strict

def ofFile {m : Type → Type} [Monad m] [Files m] (strict : Bool) (path : String) :
    m (Except LoadError (List String × Graph)) := do
  match ← Files.readPayload path with
  | .ok text => return ofText strict path text
  | .error error => return .error (.unreadable path error)

end Graph

end FormatGraph
