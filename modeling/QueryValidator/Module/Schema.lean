import QueryValidator.Host.Path
import QueryValidator.Module.Import
import QueryValidator.Zod.Print

/-!
# Generated modules

A `Schema` is one generated module: its category, the stem of its file, the name it exports and the
expression behind that name.  `Schema.source` is its text, `Schema.path` its place below the output
directory, and `indexSource` the module that exports all of them again.
-/

namespace QueryValidator

/-- What the module of an object declares besides its expression. -/
structure Annotation where
  /-- The type of the client that the schema is annotated with. -/
  typeName : Text
  /-- The module specifier of the client. -/
  clientImport : Text
  usesJson : Bool
deriving DecidableEq, Repr

structure Schema where
  category : Category
  /-- The name of the file, without its extensions. -/
  stem : Text
  exportName : Text
  body : Zod.Expr
  imports : ImportList
  object : Option Annotation

def zodImport : Text := "import \x7b z \x7d from 'zod';\n"

/-- The validator of arbitrary JSON, which refers to itself. -/
def jsonDeclaration : Text :=
  "const literalSchema = z.union([z.string(), z.number(), z.boolean()]);\n" ++
  "const jsonSchema: z.ZodType<Prisma.InputJsonValue> = z.lazy(() =>\n" ++
  "  z.union([literalSchema, z.array(jsonSchema.nullable()), z.record(jsonSchema.nullable())]),\n" ++
  ");\n"

namespace Schema

def fileName (s : Schema) : Text :=
  s.stem ++ ".schema.ts"

/-- The path of the module, relative to the output directory. -/
def path (s : Schema) : Text :=
  let directory := match s.category.directory? with
    | some d => Path.join "schemas" d
    | none => "schemas"
  Path.join directory s.fileName

/-- The text of the module. -/
def source (s : Schema) : Text :=
  zodImport ++ s.imports.text s.category ++
  match s.object with
  | some a =>
    "import type \x7b Prisma \x7d from '" ++ a.clientImport ++ "';\n\n" ++
    (if a.usesJson then jsonDeclaration ++ "\n" else []) ++
    "const Schema: z.ZodType<Prisma." ++ a.typeName ++ "> = " ++ s.body.pretty ++ ";\n\n" ++
    "export const " ++ s.exportName ++ " = Schema;\n"
  | none => "\nexport const " ++ s.exportName ++ " = " ++ s.body.pretty ++ ";\n"

/-- The components of the path below `schemas`, without the extension of the last. -/
def moduleParts (s : Schema) : List Text :=
  let parts := Path.components s.path
  let below := match parts with
    | .name d :: r => if d = ("schemas" : Text) then r else parts
    | _ => parts
  match below.getLast? with
  | some (.name n) => below.dropLast.map Path.Component.text ++ [Path.stem n]
  | _ => below.map Path.Component.text

def indexLine (s : Schema) : Text :=
  "export * from './" ++ Text.joinWith "/" s.moduleParts ++ "';\n"

end Schema

/-- Exports every module again, in the given order. -/
def indexSource (schemas : List Schema) : Text :=
  schemas.flatMap Schema.indexLine

end QueryValidator
