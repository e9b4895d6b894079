import QueryValidator.Host.Disk
import QueryValidator.Json.Fault
import QueryValidator.Query.Violation

/-!
# Failures of a run

Everything that can end a run, with its message and the messages of its causes.
-/

namespace QueryValidator

inductive Failure where
  | violation (v : Violation)
  | json (f : Json.Fault)
  | disk (f : DiskFailure)
  /-- A request that is not UTF-8. -/
  | channel (f : Utf8.Fault)
deriving DecidableEq, Repr

namespace Failure

def message : Failure → Text
  | .violation v => v.message
  | .json f => "invalid JSON: " ++ f.message
  | .disk f => f.message
  | .channel f => "generator protocol I/O error: " ++ f.message

/-- The messages of what caused the failure, the nearest cause first. -/
def causes : Failure → List Text
  | .violation _ => []
  | .json f => [f.message]
  | .disk f => [f.fault.message]
  | .channel f => [f.message]

end Failure

end QueryValidator
