import FormatGraph.Payload.Error
import FormatGraph.Payload.GraphPayload
import FormatGraph.Payload.LineMap
import FormatGraph.Payload.TokenPayload
import FormatGraph.Proofs.Shape.RoundTrip
import FormatGraph.Report.Basic

/-! Decoding a payload undoes encoding it. Payloads of tokens and line maps always come back from
their texts. A payload with a graph does so if the bodies of its nodes are exact and the whole is not
nested too deeply for a text. -/

namespace FormatGraph

open Reader

theorem Reader.numberEnds_of_blanks {blanks : List Char} (h : ∀ b ∈ blanks, isBlank b) :
    NumberEnds blanks := by
  intro c hc
  have hblank := h c (List.mem_of_mem_head? hc)
  simp only [isBlank, Bool.or_eq_true, decide_eq_true_eq] at hblank
  rcases hblank with ((rfl | rfl) | rfl) | rfl <;> rfl

theorem Reader.Reads.whole {α : Type} {reader : Reader α} {text : List Char} {a : α}
    (h : Reads reader text a) {blanks : List Char} (hblanks : ∀ b ∈ blanks, isBlank b) :
    reader.whole.run (text ++ blanks) = .ok (a, []) := by
  have hread := h.run_append (numberEnds_of_blanks hblanks)
  have hdrop : (blanks ++ []).dropWhile isBlank = [] := List.dropWhile_append_of_pos hblanks
  have hend : peekSolid.run blanks = .ok (none, []) := by
    rw [List.append_nil] at hdrop
    rw [run_peekSolid, hdrop, List.head?_nil]
  simp [Reader.whole, hread, hend]

class LawfulShaped (α : Type) [Shaped α] : Prop where
  ofCarrier_toCarrier : ∀ a : α, Shaped.ofCarrier (Shaped.toCarrier a) = a

namespace LawfulShaped

variable {α : Type} [Shaped α] [LawfulShaped α]

theorem map_ofCarrier (as : List α) :
    (as.map Shaped.toCarrier).map (Shaped.ofCarrier : _ → α) = as := by
  rw [List.map_map]
  exact List.map_id'' ofCarrier_toCarrier as

theorem optionMap_ofCarrier (a? : Option α) :
    (a?.map Shaped.toCarrier).map (Shaped.ofCarrier : _ → α) = a? := by
  cases a? with
  | none => rfl
  | some a => exact congrArg some (ofCarrier_toCarrier a)

instance : LawfulShaped RawNode := ⟨fun _ => rfl⟩

instance : LawfulShaped RawScope := ⟨fun _ => rfl⟩

instance : LawfulShaped RawGraph where
  ofCarrier_toCarrier graph :=
    congrArg₂ RawGraph.mk (map_ofCarrier graph.nodes) (map_ofCarrier graph.scopes)

instance : LawfulShaped Complaint := ⟨fun _ => rfl⟩

instance : LawfulShaped Complaints where
  ofCarrier_toCarrier cs := congrArg Complaints.mk (map_ofCarrier cs.entries)

instance : LawfulShaped GraphPayload where
  ofCarrier_toCarrier payload :=
    congrArg₂ (GraphPayload.mk payload.success payload.files) (optionMap_ofCarrier payload.graph?)
      (optionMap_ofCarrier payload.complaints?)

instance : LawfulShaped Token := ⟨fun _ => rfl⟩

instance : LawfulShaped TokenPayload where
  ofCarrier_toCarrier payload := by
    have htokens : ((payload.tokens?.map (·.map Shaped.toCarrier)).map
        (·.map Shaped.ofCarrier) : Option (List Token)) = payload.tokens? := by
      cases payload.tokens? with
      | none => rfl
      | some tokens => exact congrArg some (map_ofCarrier tokens)
    exact congrArg₂ (TokenPayload.mk payload.success payload.files) htokens
      (optionMap_ofCarrier payload.complaints?)

instance : LawfulShaped LineOrigin := ⟨fun _ => rfl⟩

instance : LawfulShaped LineMap where
  ofCarrier_toCarrier map := congrArg (LineMap.mk map.structs) (map_ofCarrier map.origins)

end LawfulShaped

namespace Shaped

variable {α : Type} [Shaped α]

/-- The value comes back from its texts: on one line, over lines, and as a report writes it. -/
structure ReadsBack (a : α) : Prop where
  compress (file : String) : decodeText file (toJson a).compress = .ok a
  pretty (file : String) : decodeText file (toJson a).pretty = .ok a
  object (file : String) (report : Report) : decodeText file (report.object (toJson a)) = .ok a

variable [LawfulShaped α] {a : α}

theorem decodeValue_sortKeys (hclear : (shape α).Clear) (hexact : (shape α).Exact (toCarrier a))
    (file : String) : decodeValue file (toJson a).sortKeys = .ok a := by
  have hvalue := (shape α).ofJson_sortKeys hclear (toCarrier a) hexact
  rw [decodeValue, ofJson, toJson, hvalue, Except.map, LawfulShaped.ofCarrier_toCarrier]
  rfl

theorem decodeText_chars (hclear : (shape α).Clear) (hexact : (shape α).Exact (toCarrier a))
    (hdepth : (toJson a).depth ≤ maxDepth) (layout : Json.Layout) {blanks : List Char}
    (hblanks : ∀ b ∈ blanks, isBlank b) (file : String) :
    decodeText file (String.ofList ((toJson a).chars layout ++ blanks)) = .ok a := by
  have hread := (shape α).read_reads hclear (toCarrier a) hexact maxDepth hdepth layout
  have htext : (shape α).ofText ((toJson a).chars layout ++ blanks) = .ok (toCarrier a) := by
    rw [Shape.ofText, toJson, hread.whole hblanks]
    rfl
  rw [decodeText, String.toList_ofList, ofText, htext, Except.map, LawfulShaped.ofCarrier_toCarrier]
  rfl

theorem readsBack (hclear : (shape α).Clear) (hexact : (shape α).Exact (toCarrier a))
    (hdepth : (toJson a).depth ≤ maxDepth) : ReadsBack a := by
  have htext (layout : Json.Layout) (file : String) :
      decodeText file (String.ofList ((toJson a).chars layout)) = .ok a := by
    have hblanks : ∀ b ∈ [], isBlank b := by simp
    have hchars := decodeText_chars hclear hexact hdepth layout hblanks file
    rwa [List.append_nil] at hchars
  have hline (layout : Json.Layout) (file : String) :
      decodeText file (Report.line (String.ofList ((toJson a).chars layout))) = .ok a := by
    have hblanks : ∀ b ∈ ['\n'], isBlank b := by simp [isBlank]
    have hchars := decodeText_chars hclear hexact hdepth layout hblanks file
    rwa [String.ofList_append] at hchars
  refine ⟨htext .oneLine, htext (.indented 0), fun file report => ?_⟩
  rw [Report.object]
  split
  · exact hline (.indented 0) file
  · exact hline .oneLine file

theorem readsBack_of_isPlain (hclear : (shape α).Clear) (hplain : (shape α).isPlain)
    (hheight : (shape α).height ≤ maxDepth) : ReadsBack a := by
  have hexact := (shape α).exact_of_isPlain hplain (toCarrier a)
  have hdepth := (shape α).depth_toJson_le hplain (toCarrier a)
  exact readsBack hclear hexact (Nat.le_trans hdepth hheight)

end Shaped

theorem GraphPayload.clear : (Shaped.shape GraphPayload).Clear := by
  simp [Shaped.shape, Shape.Clear, Fields.Clear, Fields.keys, Shape.isOptional]

theorem TokenPayload.clear : (Shaped.shape TokenPayload).Clear := by
  simp [Shaped.shape, Shape.Clear, Fields.Clear, Fields.keys, Shape.isOptional]

theorem LineMap.clear : (Shaped.shape LineMap).Clear := by
  simp [Shaped.shape, Shape.Clear, Fields.Clear, Fields.keys]

def GraphPayload.Exact (payload : GraphPayload) : Prop :=
  ∀ graph ∈ payload.graph?, ∀ node ∈ graph.nodes, (Json.obj node.body).Exact

theorem RawNode.exact_toCarrier {node : RawNode} (h : (Json.obj node.body).Exact) :
    (Shaped.shape RawNode).Exact (Shaped.toCarrier node) :=
  ⟨trivial, (Shaped.shape Loc).exact_of_isPlain rfl _, h, trivial⟩

theorem RawGraph.exact_toCarrier {graph : RawGraph}
    (h : ∀ node ∈ graph.nodes, (Json.obj node.body).Exact) :
    (Shaped.shape RawGraph).Exact (Shaped.toCarrier graph) := by
  refine ⟨fun value hvalue => ?_, fun scope _ => ?_, trivial⟩
  · obtain ⟨node, hnode, rfl⟩ := List.mem_map.1 hvalue
    exact RawNode.exact_toCarrier (h node hnode)
  · exact (Shaped.shape RawScope).exact_of_isPlain rfl scope

theorem GraphPayload.exact_toCarrier {payload : GraphPayload} (h : payload.Exact) :
    (Shaped.shape GraphPayload).Exact (Shaped.toCarrier payload) := by
  refine ⟨trivial, fun _ _ => trivial, fun value hvalue => ?_, fun value _ => ?_, trivial⟩
  · obtain ⟨graph, hgraph, rfl⟩ := Option.map_eq_some_iff.1 hvalue
    exact RawGraph.exact_toCarrier (h graph hgraph)
  · exact (Shaped.shape Complaints).exact_of_isPlain rfl value

/-- Decoding undoes encoding. A payload with a graph whose bodies are exact comes back from its
value, and from its texts unless it is nested too deeply for a text; payloads of tokens and line maps
come back from their texts whatever they hold. -/
theorem Shaped.decode_encode :
    (∀ payload : GraphPayload, payload.Exact →
      (∀ file, decodeValue file (toJson payload).sortKeys = .ok payload) ∧
      ((toJson payload).depth ≤ maxDepth → ReadsBack payload)) ∧
    (∀ payload : TokenPayload, ReadsBack payload) ∧ ∀ map : LineMap, ReadsBack map := by
  refine ⟨fun payload hexact => ⟨?_, ?_⟩, fun payload => ?_, fun map => ?_⟩
  · exact decodeValue_sortKeys GraphPayload.clear (GraphPayload.exact_toCarrier hexact)
  · exact readsBack GraphPayload.clear (GraphPayload.exact_toCarrier hexact)
  · exact readsBack_of_isPlain TokenPayload.clear rfl (by decide)
  · exact readsBack_of_isPlain LineMap.clear rfl (by decide)

/-- A payload with integers at both ends of their range, escapes, and a body in a body. -/
def GraphPayload.ranged : GraphPayload where
  success := true
  files := ["dir/\u65e5\u672c.bgn", "quote\"back\\slash\x01\n"]
  graph? := some {
    nodes := [{
      tag := "program", loc := { file := 1, line := 18446744073709551615 },
      body := [("high", .num (.int 18446744073709551615)),
        ("inner", .arr [.obj [("", .null), ("\u00e9\t", .bool false)], .str "\x7f\x00"]),
        ("low", .num (.int (-9223372036854775808)))] }]
    scopes := [{ idents := [0] }] }
  complaints? := none

theorem Shaped.decode_encode_ranged :
    GraphPayload.ranged.Exact ∧ (toJson GraphPayload.ranged).depth ≤ maxDepth ∧
      decodeValue "in.json" (toJson GraphPayload.ranged).sortKeys = .ok GraphPayload.ranged ∧
      ReadsBack GraphPayload.ranged := by
  have hinner : (Json.obj [("", .null), ("\u00e9\t", .bool false)]).Exact :=
    .obj (by decide) (by
      simp only [List.forall_mem_cons]
      exact ⟨.null, .bool false, nofun⟩)
  have hexact : GraphPayload.ranged.Exact := by
    rintro _ ⟨⟩ node hnode
    rw [List.mem_singleton] at hnode
    subst hnode
    refine .obj (by decide) ?_
    simp only [List.forall_mem_cons]
    refine ⟨.int (by decide) (by decide), .arr ?_, .int (by decide) (by decide), nofun⟩
    simp only [List.forall_mem_cons]
    exact ⟨hinner, .str _, nofun⟩
  have hdepth : (toJson GraphPayload.ranged).depth ≤ maxDepth := by
    decide
  have hpayload := decode_encode.1 GraphPayload.ranged hexact
  exact ⟨hexact, hdepth, hpayload.1 "in.json", hpayload.2 hdepth⟩

end FormatGraph
