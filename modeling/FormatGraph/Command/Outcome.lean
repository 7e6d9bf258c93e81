import FormatGraph.Text.Paint

/-! What a command leaves behind. -/

namespace FormatGraph

/-- A failure with what caused it, the nearest cause first. -/
structure Failure where
  message : String
  causes : List String := []
  deriving DecidableEq, Repr

namespace Failure

def indented (first further : String) (text : String) : String :=
  first ++ String.join (text.toList.map fun c => if c = '\n' then "\n" ++ further else c.toString)

def causeLines : List String → List String
  | [] => []
  | [cause] => ["\nCaused by:", indented "    " "    " cause]
  | causes =>
    "\nCaused by:" :: causes.zipIdx.map fun (cause, index) =>
      let number := toString index
      let blanks := String.ofList (List.replicate (5 - number.length) ' ')
      indented (blanks ++ number ++ ": ") "       " cause

def report (failure : Failure) : String :=
  String.join ((("Error: " ++ failure.message) :: causeLines failure.causes).map (· ++ "\n"))

def summary (failure : Failure) : String := ": ".intercalate (failure.message :: failure.causes)

end Failure

structure Outcome where
  code : UInt32 := 0
  stdout : String := ""
  stderr : String := ""
  deriving DecidableEq, Repr

namespace Outcome

def failed (failure : Failure) : Outcome := { code := 1, stderr := failure.report }

def notice (color : Bool) (style : Text.Style) (sign message : String) : String :=
  Text.paint color style sign ++ " " ++ Text.paint color style message ++ "\n"

def success (color : Bool) (message : String) : String := notice color .green "✅" message

def warning (color : Bool) (message : String) : String := notice color .yellow "⚠️" message

def error (color : Bool) (message : String) : String := notice color .red "❌" message

end Outcome

end FormatGraph
