import FormatGraph.Text.Bytes

/-! The lines of a text. A `LineIndex` holds the byte offset at which each line begins, and converts
between byte offsets and pairs of line and column, all counted from zero. -/

namespace FormatGraph

structure LineIndex where
  starts : List Nat
  size : Nat
  deriving DecidableEq, Repr

namespace LineIndex

def startsAfter : Nat → List Char → List Nat
  | _, [] => []
  | pos, c :: cs =>
    let next := pos + c.utf8Size
    if c = '\n' then next :: startsAfter next cs else startsAfter next cs

def ofChars (cs : List Char) : LineIndex :=
  { starts := 0 :: startsAfter 0 cs, size := Text.byteSize cs }

def ofText (text : String) : LineIndex :=
  ofChars text.toList

def lineCount (index : LineIndex) : Nat :=
  index.starts.length

def lineEnd (index : LineIndex) (line : Nat) : Nat :=
  match index.starts[line + 1]? with
  | some next => next - 1
  | none => index.size

/-- Line and column of an offset; an offset past the end counts as the end. -/
def lineCol (index : LineIndex) (offset : Nat) : Nat × Nat :=
  let offset := min offset index.size
  let line := index.starts.countP (· ≤ offset) - 1
  (line, offset - index.starts.getD line 0)

inductive Overflow where
  | overflow
  deriving DecidableEq, Repr

def wordSize : Nat := UInt64.size

/-- Offset of a line and column, at most the end of the line; a line past the last is at the end.
The start of the line and the column are added before that, and their sum has to be a word. -/
def offset (index : LineIndex) (line col : Nat) : Except Overflow Nat :=
  match index.starts[line]? with
  | some start =>
    if start + col < wordSize then .ok (min (start + col) (index.lineEnd line))
    else .error .overflow
  | none => .ok index.size

/-- A line cut out of a text, without its line feed and the carriage returns before it. Empty when
the text has no such piece, as when the index was made for another text. -/
def lineChars (index : LineIndex) (cs : List Char) (line : Nat) : List Char :=
  match index.starts[line]? with
  | some start => Text.trimReturns ((Text.slice? start (index.lineEnd line) cs).getD [])
  | none => []

def lineText (index : LineIndex) (text : String) (line : Nat) : String :=
  String.ofList (index.lineChars text.toList line)

end LineIndex

end FormatGraph
