import QueryValidator.Module.Schema
import QueryValidator.Query.Field

/-!
# Modules of types

The module of an enumeration and the module of an input type.
-/

namespace QueryValidator

open Zod (Expr)

/-- The module of an enumeration; its values are quoted, so only its name has to be an
identifier. -/
def EnumType.schema (e : EnumType) : Except Violation Schema :=
  if !Text.isIdentifier e.name then .error (.enumName e.name)
  else .ok {
    category := .enumeration
    stem := e.name
    exportName := enumIdent e.name
    body := .enumeration e.values
    imports := .empty
    object := none }

namespace InputObject

/-- The entries of the fields that have a validator, and what the module needs for all of them. -/
def resolveFields (config : Config) (owner : Text) :
    Scope → List InputField → Except Violation (Scope × List (Text × Expr))
  | s, [] => .ok (s, [])
  | s, f :: fs => do
    let (s, entry) := s.resolve config owner f
    let entry ← entry
    let (s, entries) ← resolveFields config owner s fs
    return (s, entry.toList ++ entries)

/-- The module of an input type: a strict object of its fields. -/
def schema (o : InputObject) (config : Config) : Except Violation Schema :=
  if !Text.isIdentifier o.name then .error (.inputTypeName o.name)
  else do
    let (scope, entries) ← resolveFields config o.name .empty o.fields
    let names := ObjectNames.ofName o.name config
    return {
      category := .object
      stem := names.stem
      exportName := names.ident
      body := .strict (.object entries)
      imports := scope.imports
      object := some ⟨names.typeName, config.clientImport, scope.usesJson⟩ }

end InputObject

end QueryValidator
