import QueryValidator.Query.Arguments
import QueryValidator.Query.Type

/-!
# A whole run

All modules of a document: those of the enumerations, those of the input types, and those of the
operations, each in the order of the document.  The first violation ends the run.
-/

namespace QueryValidator

/-- The input types with the required fields of unique lookups marked. -/
def Document.inputObjects (d : Document) : List InputObject :=
  d.inputTypes.map fun t => (InputObject.ofInputType t).markRequired

/-- All modules of a document under a configuration. -/
def Document.schemas (d : Document) (config : Config) : Except Violation (List Schema) := do
  let enums ← d.enumTypes.mapM EnumType.schema
  let objects ← d.inputObjects.mapM fun o => o.schema config
  let inputNames := d.inputObjects.map InputObject.name
  let operations ← d.mappings.mapM fun m => m.schemas config d.models inputNames
  return enums ++ objects ++ operations.flatten

/-- All modules of a run with the given settings in `workingDir` that writes to `output`. -/
def generate (d : Document) (s : Settings) (workingDir output : Text) :
    Except Violation (List Schema) :=
  d.schemas (Config.ofRun s d workingDir output)

end QueryValidator
