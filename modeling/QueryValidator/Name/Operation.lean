import QueryValidator.Document
import QueryValidator.Text.Uppercase

/-!
# Names of operations

The exported name of an operation's schema, and the two ways in which other names speak of
operations: a type of query arguments such as `PostFindManyArgs` (`ModelQuery`), and the input types
of raw operations, which have an alias (`rawOperations`).
-/

namespace QueryValidator

/-- The exported name of the schema of operation `op` of `model`. -/
def operationIdent (model op : Text) : Text :=
  Text.capitalized model ++ Text.capitalized op ++ "Schema"

/-- How the operation is named in an exported name. -/
def Operation.label : Operation → Text
  | .findUnique => "FindUnique"
  | .findFirst => "FindFirst"
  | .findMany => "FindMany"
  | .createOne => "CreateOne"
  | .createMany => "CreateMany"
  | .deleteOne => "DeleteOne"
  | .deleteMany => "DeleteMany"
  | .updateOne => "UpdateOne"
  | .updateMany => "UpdateMany"
  | .upsertOne => "Upsert"
  | .aggregate => "Aggregate"
  | .groupBy => "GroupBy"

/-- The arguments of a query on a model, as a type. -/
structure ModelQuery where
  model : Text
  query : Text
deriving DecidableEq, Repr

namespace ModelQuery

def findManyMark : Text := "FindManyArgs"

/-- The query whose arguments the type `name` holds: the model stands before the first mark. -/
def ofName? (name : Text) : Option ModelQuery :=
  (Text.cut? findManyMark name).map fun (model, _) => ⟨model, "findMany"⟩

def ident (q : ModelQuery) : Text :=
  operationIdent q.model q.query

/-- The stem of the operation's module, which is the action of that operation. -/
def stem (q : ModelQuery) : Text :=
  q.query ++ q.model

end ModelQuery

/-- `first` occurs in `t`, and `second` after it. -/
def occurInOrder (first second t : Text) : Bool :=
  match Text.cut? first t with
  | some (_, rest) => Text.occursIn second rest
  | none => false

/-- The name looks like that of a raw operation. -/
def isRawOperation (name : Text) : Bool :=
  occurInOrder "find" "Raw" name || occurInOrder "aggregate" "Raw" name

/-- The raw operations of one model with the types of their arguments. -/
def Mapping.rawOperations (m : Mapping) : List (Text × Text) :=
  (if m.findRaw.isSome then [("find" ++ m.model ++ "Raw", m.model ++ "FindRawArgs")] else []) ++
  (if m.aggregateRaw.isSome then
    [("aggregate" ++ m.model ++ "Raw", m.model ++ "AggregateRawArgs")] else [])

/-- The input types of all raw operations, with the argument types they stand for. -/
def rawOperations (mappings : List Mapping) : List (Text × Text) :=
  Text.tableOf (mappings.flatMap Mapping.rawOperations)

end QueryValidator
