import FormatGraph.Location

/-! Where the lines of generated code come from. -/

namespace FormatGraph

structure LineOrigin where
  line : UInt64
  loc : Loc
  deriving DecidableEq, Repr

instance : Shaped LineOrigin where
  shape := .record "LineMap" (.cons "line" .count (.cons "loc" (Shaped.shape Loc) .nil))
  ofCarrier := fun (line, loc, ()) => ⟨line, Shaped.ofCarrier loc⟩
  toCarrier origin := (origin.line, Shaped.toCarrier origin.loc, ())

structure LineMap where
  structs : List String
  origins : List LineOrigin
  deriving DecidableEq, Repr

namespace LineMap

instance : Shaped LineMap where
  shape :=
    .record "GenerateMapFile" (.cons "structs" (.list .text)
      (.cons "line_map" (.list (Shaped.shape LineOrigin)) .nil))
  ofCarrier := fun (structs, origins, ()) => ⟨structs, origins.map Shaped.ofCarrier⟩
  toCarrier map := (map.structs, map.origins.map Shaped.toCarrier, ())

/-- The place that a generated line comes from; of several, the first. -/
def locOfLine? (map : LineMap) (line : UInt64) : Option Loc :=
  (map.origins.find? (·.line = line)).map (·.loc)

end LineMap

end FormatGraph
