import QueryValidator.Document
import QueryValidator.Json.Shape

/-!
# The JSON form of documents

One shape for each record of a DMMF document, with the keys that are read; all other keys are
passed over.
-/

namespace QueryValidator

open Json

def FieldKind.shape : Shape FieldKind :=
  .choice [("scalar", .scalar), ("object", .object), ("enum", .enumeration),
    ("unsupported", .unsupported)]

def ModelField.shape : Shape ModelField :=
  .record "ModelField"
    (.required "name" .text <| .required "kind" FieldKind.shape <| .default "isList" .flag false <|
      .default "isRequired" .flag false <| .required "type" .text .nil)
    fun (name, kind, isList, isRequired, typeName, _) => ⟨name, kind, isList, isRequired, typeName⟩

def Model.shape : Shape Model :=
  .record "Model" (.required "name" .text <| .required "fields" (.list ModelField.shape) .nil)
    fun (name, fields, _) => ⟨name, fields⟩

def datamodelShape : Shape (List Model) :=
  .record "Datamodel" (.required "models" (.list Model.shape) .nil) fun (models, _) => models

def Namespace.shape : Shape Namespace :=
  .choice [("prisma", .prisma), ("model", .model)]

def Location.shape : Shape Location :=
  .choice [("scalar", .scalar), ("inputObjectTypes", .inputObjectTypes),
    ("outputObjectTypes", .outputObjectTypes), ("enumTypes", .enumTypes),
    ("fieldRefTypes", .fieldRefTypes)]

def TypeRef.shape : Shape TypeRef :=
  .record "InputTypeRef"
    (.required "type" .text <| .default "namespace" (.option Namespace.shape) none <|
      .required "location" Location.shape <| .default "isList" .flag false .nil)
    fun (typeName, declaredIn, location, isList, _) => ⟨typeName, declaredIn, location, isList⟩

def Argument.shape : Shape Argument :=
  .record "SchemaArg"
    (.required "name" .text <| .default "isRequired" .flag false <|
      .default "isNullable" .flag false <| .required "inputTypes" (.list TypeRef.shape) .nil)
    fun (name, isRequired, isNullable, inputTypes, _) => ⟨name, isRequired, isNullable, inputTypes⟩

def Constraints.shape : Shape Constraints :=
  .record "Constraints"
    (.optional "maxNumFields" .count <| .optional "minNumFields" .count <|
      .default "fields" (.option (.list .text)) none .nil)
    fun (max, min, fields, _) => ⟨max, min, fields⟩

def InputType.shape : Shape InputType :=
  .record "InputType"
    (.required "name" .text <| .default "constraints" Constraints.shape Constraints.free <|
      .required "fields" (.list Argument.shape) .nil)
    fun (name, constraints, fields, _) => ⟨name, constraints, fields⟩

def EnumType.shape : Shape EnumType :=
  .record "SchemaEnum" (.required "name" .text <| .required "values" (.list .text) .nil)
    fun (name, values, _) => ⟨name, values⟩

def inputTypesShape : Shape (List InputType × List InputType) :=
  .record "InputObjectTypes"
    (.default "prisma" (.list InputType.shape) [] <| .default "model" (.list InputType.shape) []
      .nil)
    fun (prisma, model, _) => (prisma, model)

def enumTypesShape : Shape (List EnumType × List EnumType) :=
  .record "EnumTypes"
    (.default "prisma" (.list EnumType.shape) [] <| .default "model" (.list EnumType.shape) [] .nil)
    fun (prisma, model, _) => (prisma, model)

def schemaShape :
    Shape ((List InputType × List InputType) × (List EnumType × List EnumType)) :=
  .record "Schema"
    (.required "inputObjectTypes" inputTypesShape <| .required "enumTypes" enumTypesShape .nil)
    fun (inputs, enums, _) => (inputs, enums)

def Mapping.shape : Shape Mapping :=
  .record "ModelMapping"
    (.required "model" .text <| .optional "findUnique" .text <| .optional "findFirst" .text <|
      .optional "findMany" .text <| .optional "createOne" .text <| .optional "createMany" .text <|
      .optional "deleteOne" .text <| .optional "deleteMany" .text <| .optional "updateOne" .text <|
      .optional "updateMany" .text <| .optional "upsertOne" .text <| .optional "aggregate" .text <|
      .optional "groupBy" .text <| .optional "findRaw" .text <| .optional "aggregateRaw" .text .nil)
    fun (model, findUnique, findFirst, findMany, createOne, createMany, deleteOne, deleteMany,
        updateOne, updateMany, upsertOne, aggregate, groupBy, findRaw, aggregateRaw, _) =>
      { model, findRaw, aggregateRaw
        action := fun
          | .findUnique => findUnique
          | .findFirst => findFirst
          | .findMany => findMany
          | .createOne => createOne
          | .createMany => createMany
          | .deleteOne => deleteOne
          | .deleteMany => deleteMany
          | .updateOne => updateOne
          | .updateMany => updateMany
          | .upsertOne => upsertOne
          | .aggregate => aggregate
          | .groupBy => groupBy }

def mappingsShape : Shape (List Mapping) :=
  .record "Mappings" (.required "modelOperations" (.list Mapping.shape) .nil)
    fun (mappings, _) => mappings

def Document.shape : Shape Document :=
  .record "Document"
    (.required "datamodel" datamodelShape <| .required "schema" schemaShape <|
      .required "mappings" mappingsShape .nil)
    fun (models, ((inputs, modelInputs), (schemaEnums, modelEnums)), mappings, _) =>
      ⟨models, inputs, modelInputs, schemaEnums, modelEnums, mappings⟩

/-- Reads a document from text. -/
def Document.ofText (t : Text) : Except Fault Document :=
  Document.shape.parse t

/-- Reads a document from a value that has been parsed. -/
def Document.ofJson (v : Json) : Except Fault Document :=
  Document.shape.ofJson v

end QueryValidator
