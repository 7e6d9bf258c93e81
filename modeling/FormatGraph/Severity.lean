import FormatGraph.Spelled

/-! How bad a finding is. -/

namespace FormatGraph

inductive Severity where
  | error | warning
  deriving DecidableEq, Repr

namespace Severity

instance : Spelled Severity where
  all := [.error, .warning]
  spell
    | .error => "error"
    | .warning => "warning"

def name (severity : Severity) : String := Spelled.spell severity

def ofWarning (isWarning : Bool) : Severity := if isWarning then .warning else .error

end Severity

end FormatGraph
