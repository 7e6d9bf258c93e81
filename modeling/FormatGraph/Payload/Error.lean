import FormatGraph.Severity
import FormatGraph.Shape.Shaped
import FormatGraph.Text.Cut
import FormatGraph.Text.Lines

/-! Payloads that are no JSON or do not have the expected shape. An error in a text points to its
place there; an error in a value has no place. -/

namespace FormatGraph

/-- A payload error. Lines and columns count from one, and are zero for a value. -/
structure PayloadError where
  file : String
  message : String
  offset : Nat := 0
  line : Nat := 0
  column : Nat := 0
  excerpt : String := ""
  deriving DecidableEq, Repr

namespace Fault

def lineCol (fault : Fault) (index : LineIndex) : Nat × Nat :=
  let (line, col) := index.lineCol (index.size - fault.left)
  (line + 1, col)

def message (fault : Fault) (index : LineIndex) : String :=
  let (line, col) := fault.lineCol index
  fault.cause.message ++ " at line " ++ toString line ++ " column " ++ toString col

end Fault

namespace PayloadError

def severity (_ : PayloadError) : Severity := .error

/-- A message without the place that it ends with, and without all that follows the last words that
begin like one. -/
def withoutPlace (message : String) : String :=
  match Text.beforeLast? " at line ".toList message.toList with
  | some before => String.ofList before
  | none => message

/-- An error with a message about a place in a text. Lines and columns count from one; those that are
zero are before the first. -/
def ofPlace (file : String) (text : List Char) (message : String) (place : Nat × Nat) : PayloadError :=
  let index := LineIndex.ofChars text
  let line := max place.1 1
  let column := max place.2 1
  { file, message := withoutPlace message
    -- A place in the text has an offset; see `ofPlace_pointsInto`.
    offset := (index.offset (line - 1) (column - 1)).toOption.getD index.size
    line, column, excerpt := String.ofList (index.lineChars text (line - 1)) }

def ofFault (file : String) (text : List Char) (fault : Fault) : PayloadError :=
  let index := LineIndex.ofChars text
  ofPlace file text (fault.message index) (fault.lineCol index)

def ofMismatch (file : String) (mismatch : Mismatch) : PayloadError :=
  { file, message := withoutPlace mismatch.message }

def report (e : PayloadError) : String :=
  e.severity.name ++ ": " ++ e.message ++ "\n" ++ e.file ++ ":" ++ toString e.line ++ ":" ++
    toString e.column ++ ":\n" ++ e.excerpt

end PayloadError

namespace Shaped

variable {α : Type} [Shaped α]

def decodeText (file text : String) : Except PayloadError α :=
  (ofText text.toList).mapError (.ofFault file text.toList)

def decodeValue (file : String) (value : Json) : Except PayloadError α :=
  (ofJson value).mapError (.ofMismatch file)

end Shaped

end FormatGraph
