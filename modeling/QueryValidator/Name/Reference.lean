import QueryValidator.Module.Import
import QueryValidator.Run.Config

/-!
# Names of types and references to them

Under which names an input type is exported (`ObjectNames`), and how a field refers to an object or
enumeration type by the name that its candidate gives (`Reference`).
-/

namespace QueryValidator

/-- The relation filters of a model stand for the model's where input; the longer ending is tried
first. -/
def whereInputOf (name : Text) : Text :=
  match Text.dropEnding? "ListRelationFilter" name with
  | some model => model ++ "WhereInput"
  | none =>
    match Text.dropEnding? "RelationFilter" name with
    | some model => model ++ "WhereInput"
    | none => name

def objectIdent (name : Text) : Text :=
  name ++ "ObjectSchema"

def enumIdent (name : Text) : Text :=
  name ++ "Schema"

def aggregateInputEndings : List Text :=
  ["CountAggregateInput", "SumAggregateInput", "AvgAggregateInput", "MinAggregateInput",
    "MaxAggregateInput"]

def isAggregateInput (name : Text) : Bool :=
  aggregateInputEndings.any fun ending => (Text.dropEnding? ending name).isSome

/-- The type of the client that an input type validates; the client exports the input types of
aggregates under a longer name. -/
def clientType (name : Text) : Text :=
  if isAggregateInput name then name ++ "Type" else name

/-- The names under which an input type is exported. -/
structure ObjectNames where
  /-- The stem of the module. -/
  stem : Text
  typeName : Text
deriving DecidableEq, Repr

namespace ObjectNames

/-- The argument type that stands for the input type `name` of a raw operation. -/
def rawArguments? (name : Text) (c : Config) : Option Text :=
  if c.provider = .mongodb ∧ isRawOperation name then c.rawOperations.lookup name else none

def ofName (name : Text) (c : Config) : ObjectNames :=
  match rawArguments? name c with
  | some args => ⟨(Text.dropEnding? "Args" args).getD args, clientType args⟩
  | none => ⟨name, clientType name⟩

def ident (n : ObjectNames) : Text :=
  objectIdent n.stem

end ObjectNames

/-- How a field refers to an object or enumeration type. -/
structure Reference where
  ident : Text
  /-- The type of the client that the referenced schema validates. -/
  typeName : Text
  /-- None if the module refers to itself. -/
  imported : Option Import
deriving DecidableEq, Repr

/-- The reference to the type that a candidate names `raw`, from the module of the type `owner`. -/
def Reference.ofName (raw : Text) (isEnum : Bool) (owner : Text) : Reference :=
  match ModelQuery.ofName? raw with
  | some q => ⟨q.ident, raw, some ⟨q.ident, .operation, q.stem⟩⟩
  | none =>
    let name := whereInputOf raw
    let ident := if isEnum then enumIdent name else objectIdent name
    let category : Category := if isEnum then .enumeration else .object
    ⟨ident, name, if name = owner then none else some ⟨ident, category, name⟩⟩

end QueryValidator
