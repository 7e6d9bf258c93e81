/-! Cutting a text at a pattern. -/

namespace FormatGraph.Text

def beforeLast? (pattern : List Char) : List Char → Option (List Char)
  | [] => if pattern.isEmpty then some [] else none
  | c :: cs =>
    match beforeLast? pattern cs with
    | some before => some (c :: before)
    | none => if pattern.isPrefixOf (c :: cs) then some [] else none

end FormatGraph.Text
