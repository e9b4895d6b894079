import QueryValidator.Text

/-!
# Data model documents

The parts of a DMMF document that validators are generated from: the models, the input types and
enumerations of the query schema, and the operations that each model offers.
-/

namespace QueryValidator

inductive FieldKind where
  | scalar
  | object
  | enumeration
  | unsupported
deriving DecidableEq, Repr

structure ModelField where
  name : Text
  kind : FieldKind
  isList : Bool
  isRequired : Bool
  typeName : Text
deriving DecidableEq, Repr

structure Model where
  name : Text
  fields : List ModelField
deriving DecidableEq, Repr

/-- Some field of the model points at another model. -/
def Model.hasRelation (m : Model) : Bool :=
  m.fields.any fun f => f.kind == .object

/-- The first model of that name. -/
def findModel? (models : List Model) (name : Text) : Option Model :=
  models.find? fun m => m.name == name

/-- Who declares a type. -/
inductive Namespace where
  | prisma
  | model
deriving DecidableEq, Repr

/-- Where a type is declared. -/
inductive Location where
  | scalar
  | inputObjectTypes
  | outputObjectTypes
  | enumTypes
  | fieldRefTypes
deriving DecidableEq, Repr

structure TypeRef where
  typeName : Text
  declaredIn : Option Namespace
  location : Location
  isList : Bool
deriving DecidableEq, Repr

/-- A field of an input type with the types it may have. -/
structure Argument where
  name : Text
  isRequired : Bool
  isNullable : Bool
  inputTypes : List TypeRef
deriving DecidableEq, Repr

/-- How many fields of an input type have to be given, and which. -/
structure Constraints where
  max : Option Nat
  min : Option Nat
  fields : Option (List Text)
deriving DecidableEq, Repr

def Constraints.free : Constraints := ⟨none, none, none⟩

structure InputType where
  name : Text
  constraints : Constraints
  fields : List Argument
deriving DecidableEq, Repr

structure EnumType where
  name : Text
  values : List Text
deriving DecidableEq, Repr

/-- The operations that have a schema of their arguments, in the order of their schemas. -/
inductive Operation where
  | findUnique
  | findFirst
  | findMany
  | createOne
  | createMany
  | deleteOne
  | deleteMany
  | updateOne
  | updateMany
  | upsertOne
  | aggregate
  | groupBy
deriving DecidableEq, Repr

def Operation.all : List Operation :=
  [.findUnique, .findFirst, .findMany, .createOne, .createMany, .deleteOne, .deleteMany,
    .updateOne, .updateMany, .upsertOne, .aggregate, .groupBy]

/-- The operations of one model: each that it has is called by an action name. -/
structure Mapping where
  model : Text
  action : Operation → Option Text
  findRaw : Option Text
  aggregateRaw : Option Text

/-- The operations the model has, with their actions. -/
def Mapping.enabled (m : Mapping) : List (Operation × Text) :=
  Operation.all.filterMap fun op => (m.action op).map (op, ·)

structure Document where
  models : List Model
  inputTypes : List InputType
  /-- Input types of the model namespace; nothing is generated from them. -/
  modelInputTypes : List InputType
  schemaEnums : List EnumType
  modelEnums : List EnumType
  mappings : List Mapping

/-- The enumerations of both namespaces. -/
def Document.enumTypes (d : Document) : List EnumType :=
  d.schemaEnums ++ d.modelEnums

end QueryValidator
