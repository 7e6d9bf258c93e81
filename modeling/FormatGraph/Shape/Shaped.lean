import FormatGraph.Shape.OfText

/-! Types that are written in payloads: each is the carrier of a shape under another name. -/

namespace FormatGraph

class Shaped (α : Type) where
  shape : Shape
  ofCarrier : shape.Carrier → α
  toCarrier : α → shape.Carrier

namespace Shaped

variable {α : Type} [Shaped α]

def ofJson (value : Json) : Except Mismatch α :=
  ((shape α).ofJson value).map ofCarrier

def ofText (text : List Char) : Except Fault α :=
  ((shape α).ofText text).map ofCarrier

def toJson (a : α) : Json :=
  (shape α).toJson (toCarrier a)

end Shaped

end FormatGraph
