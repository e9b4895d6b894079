import QueryValidator.Module.Schema
import QueryValidator.Proofs.Name.Writable
import QueryValidator.Proofs.Zod.Grammar

/-!
# The grammar of modules

A module consists of the lines of its imports and of the declarations behind them, with or without
the annotation of an object. The rules of `ModuleText` have places for identifiers, for the specifier
of the client and for the phrase of an expression. If all names of a module can be written, its text
is made by these rules (`Schema.Writable.moduleText`), so that no text which is not an identifier
stands outside the quotes of an enumeration's values.
-/

namespace QueryValidator

open Zod.Expr (Phrase)

/-! ### Rules -/

/-- The text of an import, in a module of category `origin`. -/
inductive ImportText (origin : Category) : Text → Prop
  | statement {ident stem : Text} (target : Category) : Text.isIdentifier ident = true →
      Text.isIdentifier stem = true →
      ImportText origin ("import \x7b " ++ ident ++ " \x7d from '" ++
        (origin.wayTo target ++ stem ++ ".schema") ++ "';\n")

/-- The text of a module that imports the client, if at all, from `client`, and whose enumerations
list only `values`. -/
inductive ModuleText (client : Text) (values : List Text) (origin : Category) : Text → Prop
  | plain {imports : List Text} {exportName body : Text} :
      (∀ t ∈ imports, ImportText origin t) → Text.isIdentifier exportName = true →
      Phrase values body →
      ModuleText client values origin (zodImport ++ imports.flatten ++
        ("\nexport const " ++ exportName ++ " = " ++ body ++ ";\n"))
  | annotated {imports : List Text} {json typeName exportName body : Text} :
      (∀ t ∈ imports, ImportText origin t) → json = [] ∨ json = jsonDeclaration ++ "\n" →
      Text.isIdentifier typeName = true → Text.isIdentifier exportName = true →
      Phrase values body →
      ModuleText client values origin (zodImport ++ imports.flatten ++
        ("import type \x7b Prisma \x7d from '" ++ client ++ "';\n\n" ++ json ++
          "const Schema: z.ZodType<Prisma." ++ typeName ++ "> = " ++ body ++ ";\n\n" ++
          "export const " ++ exportName ++ " = Schema;\n"))

/-! ### Modules -/

theorem Import.Writable.importText {i : Import} (h : i.Writable) (origin : Category) :
    ImportText origin (i.statement origin) :=
  .statement i.category h.ident h.stem

/-- All names of the module can be written, and its enumerations list only `values`. -/
structure Schema.Writable (values : List Text) (t : Schema) : Prop where
  stem : Text.isIdentifier t.stem = true
  exportName : Text.isIdentifier t.exportName = true
  imports : ∀ i ∈ t.imports.entries, i.Writable
  body : t.body.Writable values
  typeName : ∀ a, t.object = some a → Text.isIdentifier a.typeName = true

/-- The client is imported from the given specifier, if at all. -/
def Schema.ImportsClient (t : Schema) (client : Text) : Prop :=
  ∀ a, t.object = some a → a.clientImport = client

theorem Schema.Writable.moduleText {client : Text} {values : List Text} {t : Schema}
    (h : t.Writable values) (hclient : t.ImportsClient client) :
    ModuleText client values t.category t.source := by
  have himports : ∀ line ∈ t.imports.entries.map fun i => i.statement t.category,
      ImportText t.category line :=
    List.forall_mem_map.mpr fun i hi => (h.imports i hi).importText t.category
  unfold source
  rw [ImportList.text, List.flatMap_def]
  cases hobject : t.object with
  | some a =>
    have hjson : (if a.usesJson then jsonDeclaration ++ "\n" else []) = [] ∨
        (if a.usesJson then jsonDeclaration ++ "\n" else []) = jsonDeclaration ++ "\n" :=
      (ite_eq_or_eq _ _ _).symm
    rw [← hclient a hobject]
    exact .annotated himports hjson (h.typeName a hobject) h.exportName h.body.phrase_pretty
  | none => exact .plain himports h.exportName h.body.phrase_pretty

end QueryValidator
