import FormatGraph.Shape.Shaped

/-! Places in source files. -/

namespace FormatGraph

structure Span where
  start : UInt64 := 0
  stop : UInt64 := 0
  deriving DecidableEq, Repr, Inhabited

namespace Span

/-- The number of bytes; a range that ends before it starts has none. -/
def length (span : Span) : UInt64 :=
  if span.start ≤ span.stop then span.stop - span.start else 0

def isEmpty (span : Span) : Bool :=
  span.length = 0

end Span

/-- A place in a source file: the bytes, the number of the file, counted from one, and line and
column. -/
structure Loc where
  span : Span := {}
  file : UInt64 := 0
  line : UInt64 := 0
  col : UInt64 := 0
  deriving DecidableEq, Repr, Inhabited

namespace Loc

instance : Shaped Loc where
  shape :=
    .record "Loc" (.cons "pos" (.record "Pos" (.cons "begin" .count (.cons "end" .count .nil)))
      (.cons "file" .count (.cons "line" .count (.cons "col" .count .nil))))
  ofCarrier := fun ((start, stop, ()), file, line, col, ()) => ⟨⟨start, stop⟩, file, line, col⟩
  toCarrier loc := ((loc.span.start, loc.span.stop, ()), loc.file, loc.line, loc.col, ())

def text (loc : Loc) : String :=
  toString loc.line ++ ":" ++ toString loc.col

end Loc

end FormatGraph
