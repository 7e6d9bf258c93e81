import FormatGraph.Payload.Complaint
import FormatGraph.Payload.RawGraph

/-! What the front end writes for a source file: a graph, or complaints, or both. -/

namespace FormatGraph

structure GraphPayload where
  success : Bool
  files : List String
  graph? : Option RawGraph
  complaints? : Option Complaints

namespace GraphPayload

instance : Shaped GraphPayload where
  shape :=
    .record "AstFile" (.cons "success" .flag (.cons "files" (.list .text)
      (.cons "ast" (.optional (Shaped.shape RawGraph))
        (.cons "error" (.optional (Shaped.shape Complaints)) .nil))))
  ofCarrier := fun (success, files, graph?, complaints?, ()) =>
    ⟨success, files, graph?.map Shaped.ofCarrier, complaints?.map Shaped.ofCarrier⟩
  toCarrier payload :=
    (payload.success, payload.files, payload.graph?.map Shaped.toCarrier,
      payload.complaints?.map Shaped.toCarrier, ())

def fileName? (payload : GraphPayload) (file : UInt64) : Option String :=
  if file = 0 then none else payload.files[file.toNat - 1]?

end GraphPayload

end FormatGraph
