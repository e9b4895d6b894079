import QueryValidator.Module.Schema
import QueryValidator.Name.Reference
import QueryValidator.Query.Aggregates
import QueryValidator.Query.Violation

/-!
# Modules of operations

The arguments of an operation are written once for all models, as `ArgumentForm`s, in which an input
type of the model is named by its ending.  A form has two readings: the expression for a model, and
the imports which that expression needs.
-/

namespace QueryValidator

open Zod (Expr)

/-- The form of an operation's argument. -/
inductive ArgumentForm where
  /-- The input type named by the model and the ending. -/
  | input (ending : Text)
  /-- The enumeration of the model's scalar fields. -/
  | fieldNames
  | scalar (s : Zod.Scalar)
  | list (a : ArgumentForm)
  | optional (a : ArgumentForm)
  | deferred (a : ArgumentForm)
  | either (a b : ArgumentForm)
deriving DecidableEq, Repr

namespace ArgumentForm

/-- The ending of the enumeration of a model's scalar fields. -/
def fieldNamesEnding : Text := "ScalarFieldEnum"

/-- The expression of the argument for a model. -/
def expr (model : Text) : ArgumentForm → Expr
  | .input ending => .ref (objectIdent (model ++ ending))
  | .fieldNames => .ref (enumIdent (model ++ fieldNamesEnding))
  | .scalar s => .scalar s
  | .list a => .list (a.expr model)
  | .optional a => (a.expr model).markOptional
  | .deferred a => .deferred (a.expr model)
  | .either a b => .union [a.expr model, b.expr model]

/-- What the expression imports, in the order of its parts. -/
def imports (model : Text) : ArgumentForm → List Import
  | .input ending => [⟨objectIdent (model ++ ending), .object, model ++ ending⟩]
  | .fieldNames =>
    [⟨enumIdent (model ++ fieldNamesEnding), .enumeration, model ++ fieldNamesEnding⟩]
  | .scalar _ => []
  | .list a => a.imports model
  | .optional a => a.imports model
  | .deferred a => a.imports model
  | .either a b => a.imports model ++ b.imports model

/-- A value of the form or a list of such values. -/
def oneOrMany (a : ArgumentForm) : ArgumentForm :=
  .either a (.list a)

def number : ArgumentForm :=
  .optional (.scalar .number)

end ArgumentForm

/-- The arguments of an operation by key, in the order of the schema. -/
abbrev ArgumentList := List (Text × ArgumentForm)

namespace Operation

def argument (key : Text) (form : ArgumentForm) : Text × ArgumentForm := (key, form)

/-- The argument, if `offered`. -/
def offer (offered : Bool) (key : Text) (form : ArgumentForm) : ArgumentList :=
  if offered then [argument key form] else []

/-- A part of the model's records: an optional input type, deferred if asked for. -/
def projected (ending : Text) (isDeferred : Bool) : ArgumentForm :=
  if isDeferred then .deferred (.optional (.input ending)) else .optional (.input ending)

/-- `select`, and `include` for a model with relations, as far as the run offers them. -/
def projection (config : Config) (model : Model) (isDeferred : Bool) : ArgumentList :=
  offer config.select "select" (projected "Select" isDeferred) ++
  offer (config.includes && model.hasRelation) "include" (projected "Include" isDeferred)

/-- The order of the results, by relevance too if the data source searches text. -/
def ordering (config : Config) : ArgumentList :=
  let ending : Text := if config.searchesText then "OrderByWithRelationAndSearchRelevanceInput"
    else "OrderByWithRelationInput"
  [argument "orderBy" (.optional (.oneOrMany (.input ending)))]

def filter : Text × ArgumentForm :=
  argument "where" (.optional (.input "WhereInput"))

def unique : Text × ArgumentForm :=
  argument "where" (.input "WhereUniqueInput")

/-- Which records, and which part of their list. -/
def window : ArgumentList :=
  [filter, argument "cursor" (.optional (.input "WhereUniqueInput")), argument "take" .number,
    argument "skip" .number]

def distinctFields : ArgumentList :=
  [argument "distinct" (.optional (.list .fieldNames))]

def created : ArgumentForm :=
  .either (.input "CreateInput") (.input "UncheckedCreateInput")

def updated : ArgumentForm :=
  .either (.input "UpdateInput") (.input "UncheckedUpdateInput")

def aggregateClause (a : Aggregate) : Text × ArgumentForm :=
  let input := ArgumentForm.input a.inputEnding
  argument a.clause
    (.optional (if a = .count then .either (.scalar .literalTrue) input else input))

/-- The arguments of an operation of a model that supports the given aggregates. -/
def arguments (op : Operation) (config : Config) (model : Model)
    (aggregates : List Aggregate) : ArgumentList :=
  match op with
  | .findUnique => projection config model false ++ [unique]
  | .deleteOne => projection config model false ++ [unique]
  | .findFirst => projection config model false ++ ordering config ++ window ++ distinctFields
  | .findMany => projection config model true ++ ordering config ++ window ++ distinctFields
  | .createOne => projection config model false ++ [argument "data" created]
  | .createMany =>
    [argument "data" (.oneOrMany (.input "CreateManyInput"))] ++
    offer config.provider.skipsDuplicates "skipDuplicates" (.optional (.scalar .boolean))
  | .deleteMany => [filter]
  | .updateOne => projection config model false ++ [argument "data" updated, unique]
  | .updateMany => [argument "data" (.input "UpdateManyMutationInput"), filter]
  | .upsertOne =>
    projection config model false ++
    [unique, argument "create" created, argument "update" updated]
  | .aggregate => ordering config ++ window ++ aggregates.map aggregateClause
  | .groupBy =>
    [filter, argument "orderBy" (.optional (.oneOrMany (.input "OrderByWithAggregationInput"))),
      argument "having" (.optional (.input "ScalarWhereWithAggregatesInput")),
      argument "take" .number, argument "skip" .number, argument "by" (.list .fieldNames)]

/-- The module of the operation that the model calls `action`. -/
def schema (op : Operation) (config : Config) (model : Model)
    (aggregates : List Aggregate) (action : Text) : Except Violation Schema :=
  if !Text.isIdentifier action then .error (.actionName model.name action)
  else
    let arguments := op.arguments config model aggregates
    .ok {
      category := .operation
      stem := action
      exportName := operationIdent model.name op.label
      body := .object (arguments.map fun (key, a) => (key, a.expr model.name))
      imports := ImportList.empty.insertAll (arguments.flatMap fun (_, a) => a.imports model.name)
      object := none }

end Operation

/-- The modules of the operations that a mapping enables.  `inputNames` are the names of the
document's input types, which tell the aggregates. -/
def Mapping.schemas (m : Mapping) (config : Config) (models : List Model)
    (inputNames : List Text) : Except Violation (List Schema) :=
  if m.enabled.isEmpty then .ok []
  else match findModel? models m.model with
    | none => .error (.unknownModel m.model)
    | some model =>
      if !Text.isIdentifier model.name then .error (.modelName model.name)
      else
        let aggregates := Aggregate.supported inputNames model.name
        m.enabled.mapM fun (op, action) => op.schema config model aggregates action

end QueryValidator
