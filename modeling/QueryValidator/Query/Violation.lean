import QueryValidator.Text

/-!
# Documents that nothing can be generated from

Names of a document are written into generated code as they stand, so each has to be an identifier;
and operations have to belong to a model.
-/

namespace QueryValidator

inductive Violation where
  | enumName (name : Text)
  | inputTypeName (name : Text)
  | fieldName (owner field : Text)
  | candidateName (owner field candidate : Text)
  | unknownModel (model : Text)
  | modelName (model : Text)
  | actionName (model action : Text)
deriving DecidableEq, Repr

def Violation.at (owner field reason : Text) : Text :=
  "unrecognized construct in `" ++ owner ++ "." ++ field ++ "`: " ++ reason

def Violation.message : Violation → Text
  | .enumName name => Violation.at name [] "enum name is not a valid identifier"
  | .inputTypeName name => Violation.at name [] "input type name is not a valid identifier"
  | .fieldName owner field => Violation.at owner field "field name is not a valid identifier"
  | .candidateName owner field candidate =>
    Violation.at owner field ("candidate type `" ++ candidate ++ "` is not a valid identifier")
  | .unknownModel model => "model operations reference unknown model `" ++ model ++ "`"
  | .modelName model => Violation.at model [] "model name is not a valid identifier"
  | .actionName model action =>
    Violation.at model action "operation action is not a valid identifier"

/-- The violation names a model that is not there, rather than a name that cannot be written. -/
def Violation.isUnknownModel : Violation → Bool
  | .unknownModel _ => true
  | _ => false

end QueryValidator
