import FormatGraph.Load
import FormatGraph.Proofs.Payload.RoundTrip
import FormatGraph.Proofs.Shape.Agree

/-! The two ways to a payload. What is decoded from a text is also decoded from the value of the
text, so both give the same graph, or fail alike to give one. -/

namespace FormatGraph

open Reader

/-- The text is a JSON document with the value, to whatever depth it is nested. -/
def Json.IsValueOf (json : Json) (text : String) : Prop :=
  ∃ depth rest, (value depth).whole.run text.toList = .ok (json, rest)

theorem Json.isValueOf_of_parse {json : Json} {text : String} (h : parse text = .ok json) :
    json.IsValueOf text := by
  obtain ⟨⟨_, rest⟩, hrun, rfl⟩ := map_eq_ok_iff.1 h
  exact ⟨maxDepth, rest, hrun⟩

theorem Shape.ofJson_of_ofText {shape : Shape} (hclear : shape.Clear) {text : String}
    {value : shape.Carrier} {json : Json} (hjson : json.IsValueOf text)
    (h : shape.ofText text.toList = .ok value) : shape.ofJson json = .ok value := by
  obtain ⟨depth, rest', hjson⟩ := hjson
  obtain ⟨⟨_, rest⟩, hread, rfl⟩ := map_eq_ok_iff.1 h
  exact ((shape.read_agrees hclear maxDepth depth).whole hread hjson).2

theorem Shaped.decodeValue_of_decodeText {α : Type} [Shaped α] (hclear : (shape α).Clear)
    {file text : String} {json : Json} {a : α} (hjson : json.IsValueOf text)
    (h : decodeText file text = .ok a) : decodeValue file json = .ok a := by
  rw [decodeText, mapError_eq_ok_iff] at h
  obtain ⟨value, hvalue, rfl⟩ := map_eq_ok_iff.1 h
  rw [decodeValue, mapError_eq_ok_iff, ofJson, Shape.ofJson_of_ofText hclear hjson hvalue]
  rfl

/-- A payload that is decoded from a text is decoded from the value of the text as well, and there
is no difference between the two from there on. -/
theorem Graph.ofText_eq_ofValue {file text : String} {json : Json} {payload : GraphPayload}
    (hjson : json.IsValueOf text) (htext : Shaped.decodeText file text = .ok payload) :
    Shaped.decodeValue file json = .ok payload ∧
      ∀ strict, ofText strict file text = ofValue strict file json := by
  have hvalue : Shaped.decodeValue file json = .ok payload :=
    Shaped.decodeValue_of_decodeText GraphPayload.clear hjson htext
  refine ⟨hvalue, fun strict => ?_⟩
  calc
    ofText strict file text = payload.load strict := by
      rw [ofText, htext]
      rfl
    _ = ofValue strict file json := by
      rw [ofValue, hvalue]
      rfl

namespace GraphPayload

/-- A text with records in lists, a key nobody asks for that is repeated, and one repeated in a
body. -/
def crowdedText : String :=
  "\x7b\"success\":true,\"x\":[\x7b\x7d],\"files\":[],\"ast\":\x7b\"node\":[[\"program\"," ++
    "[[0,18446744073709551615],1,2,3],\x7b\"k\":1,\"k\":[]\x7d]],\"scope\":[]\x7d,\"x\":null\x7d"

def crowdedValue : Json :=
  .obj [("ast", .obj [("node", .arr [.arr [.str "program",
      .arr [.arr [.nat 0, .nat 18446744073709551615], .nat 1, .nat 2, .nat 3],
      .obj [("k", .arr [])]]]), ("scope", .arr [])]),
    ("files", .arr []), ("success", .bool true), ("x", .null)]

def crowded : GraphPayload where
  success := true
  files := []
  graph? := some {
    nodes := [{
      tag := "program"
      loc := { span := ⟨0, 18446744073709551615⟩, file := 1, line := 2, col := 3 }
      body := [("k", .arr [])] }]
    scopes := [] }
  complaints? := none

end GraphPayload

theorem Graph.ofText_eq_ofValue_crowded :
    Shaped.decodeValue "in.json" GraphPayload.crowdedValue = .ok GraphPayload.crowded ∧
      ∀ strict, ofText strict "in.json" GraphPayload.crowdedText =
        ofValue strict "in.json" GraphPayload.crowdedValue := by
  have hparse : Json.parse GraphPayload.crowdedText = .ok GraphPayload.crowdedValue := by
    set_option maxRecDepth 4000 in
    with_unfolding_all rfl
  have htext : Shaped.decodeText "in.json" GraphPayload.crowdedText = .ok GraphPayload.crowded := by
    set_option maxRecDepth 4000 in
    with_unfolding_all rfl
  exact ofText_eq_ofValue (Json.isValueOf_of_parse hparse) htext

end FormatGraph
