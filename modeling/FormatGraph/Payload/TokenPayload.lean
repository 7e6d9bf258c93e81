import FormatGraph.Payload.Complaint

/-! What the front end writes when it is asked for tokens only. -/

namespace FormatGraph

structure Token where
  tag : TokenTag
  text : String
  loc : Loc
  deriving DecidableEq, Repr

instance : Shaped Token where
  shape :=
    .record "Token" (.cons "tag" .tokenTag (.cons "token" .text
      (.cons "loc" (Shaped.shape Loc) .nil)))
  ofCarrier := fun (tag, text, loc, ()) => ⟨tag, text, Shaped.ofCarrier loc⟩
  toCarrier token := (token.tag, token.text, Shaped.toCarrier token.loc, ())

structure TokenPayload where
  success : Bool
  files : List String
  tokens? : Option (List Token)
  complaints? : Option Complaints
  deriving DecidableEq, Repr

instance : Shaped TokenPayload where
  shape :=
    .record "TokenFile" (.cons "success" .flag (.cons "files" (.list .text)
      (.cons "tokens" (.optional (.list (Shaped.shape Token)))
        (.cons "error" (.optional (Shaped.shape Complaints)) .nil))))
  ofCarrier := fun (success, files, (tokens? : Option (List _)), complaints?, ()) =>
    ⟨success, files, tokens?.map (·.map Shaped.ofCarrier), complaints?.map Shaped.ofCarrier⟩
  toCarrier payload :=
    (payload.success, payload.files, payload.tokens?.map (·.map Shaped.toCarrier),
      payload.complaints?.map Shaped.toCarrier, ())

end FormatGraph
