import FormatGraph.Report.Table

/-! Counts, and the time that counting took. -/

namespace FormatGraph

def durationText (milliseconds : Nat) : String :=
  let seconds := milliseconds / 1000
  if seconds = 0 then toString milliseconds ++ "ms"
  else if seconds < 60 then
    let rest := toString (milliseconds % 1000)
    toString seconds ++ "." ++ String.ofList (List.replicate (3 - rest.length) '0') ++ rest ++ "s"
  else toString (seconds / 60) ++ "m " ++ toString (seconds % 60) ++ "s"

structure Statistics where
  total : Nat
  categories : List (String × Nat)
  duration? : Option String
  deriving DecidableEq, Repr

namespace Statistics

def toJson (s : Statistics) : Json :=
  .obj [("total", .nat s.total), ("categories", .arr (s.categories.map fun (name, count) =>
    .arr [.str name, .nat count])), ("duration", s.duration?.elim .null .str)]

def toTable (s : Statistics) : Table :=
  ⟨["kind", "count"], s.categories.map fun (name, count) => [name, toString count]⟩

def lines (s : Statistics) : List String :=
  let categories := s.categories.map fun (name, count) => "  " ++ name ++ ": " ++ toString count
  ["Total items: " ++ toString s.total] ++
    (if categories.isEmpty then [] else "\nBy category:" :: categories) ++
    s.duration?.toList.map ("\nDuration: " ++ ·)

end Statistics

end FormatGraph
