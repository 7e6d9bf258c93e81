/-! Colored text for terminals. -/

namespace FormatGraph.Text

inductive Style where
  | blue
  | boldBlue
  | green
  | yellow
  | red
  deriving DecidableEq, Repr

def Style.sequence : Style → List Char
  | .blue => "\x1b[34m".toList
  | .boldBlue => "\x1b[1;34m".toList
  | .green => "\x1b[32m".toList
  | .yellow => "\x1b[33m".toList
  | .red => "\x1b[31m".toList

def plain : List Char := "\x1b[0m".toList

/-- Begin the style again wherever the text itself ends it. -/
def restyle (style : Style) : List Char → List Char
  | [] => []
  | '\x1b' :: '[' :: '0' :: 'm' :: rest => plain ++ style.sequence ++ restyle style rest
  | c :: rest => c :: restyle style rest

def paint (color : Bool) (style : Style) (text : String) : String :=
  if color then String.ofList (style.sequence ++ restyle style text.toList ++ plain) else text

end FormatGraph.Text
