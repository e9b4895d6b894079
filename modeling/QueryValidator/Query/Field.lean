import QueryValidator.Name.Reference
import QueryValidator.Query.Input
import QueryValidator.Query.Violation

/-!
# Validators of fields

`InputField.validator` gives the expression of a field: the alternatives of its candidates, reduced
to the list alternatives for a filter, joined in a union if there are several, and with the one
modifier that the field ends with.  `Scope.resolve` does the same while it keeps what the module has
to import and declare.
-/

namespace QueryValidator

open Zod (Expr)

/-! ### Kinds of fields -/

/-- Fields of scalar filters; they do not offer a choice between a value and a list. -/
def filterFields : List Text :=
  ["in", "notIn", "equals", "not", "lt", "lte", "gt", "gte", "contains", "startsWith", "endsWith",
    "mode", "path"]

/-- Fields that match a related record; they are optional and never nullable. -/
def relationFields : List Text := ["is", "isNot"]

def isFilterField (name : Text) : Bool := filterFields.contains name

theorem isFilterField_iff {name : Text} : isFilterField name = true ↔
    name ∈ (["in", "notIn", "equals", "not", "lt", "lte", "gt", "gte", "contains", "startsWith",
      "endsWith", "mode", "path"] : List Text) :=
  List.contains_iff_mem

def isRelationField (name : Text) : Bool := relationFields.contains name

theorem isRelationField_iff {name : Text} :
    isRelationField name = true ↔ name = "is".toList ∨ name = "isNot".toList := by
  simp [isRelationField, relationFields]

/-- What a field's expression ends with. -/
inductive Modifier where
  | plain
  | optional
  | nullable
deriving DecidableEq, Repr

namespace Modifier

def ofField (isRequired isNullable isRelation : Bool) : Modifier :=
  match isRequired, isNullable with
  | false, true => if isRelation then .optional else .nullable
  | false, false => .optional
  | true, true => .nullable
  | true, false => .plain

def apply : Modifier → Expr → Expr
  | .plain, e => e
  | .optional, e => e.markOptional
  | .nullable, e => e.markNullable

end Modifier

/-! ### Candidates -/

namespace Candidate

/-- The name by which the candidate refers to a generated module. -/
def reference? (c : Candidate) : Option Text :=
  match c.kind with
  | .enumeration name _ => some name
  | .object name .generated => some name
  | _ => none

/-- The candidate's reference, if it has one, may be written into the module. -/
def isWritable (c : Candidate) : Bool :=
  c.reference?.all Text.isIdentifier

/-- The candidate names an enumeration, be it that it is one or that its name is registered as
one. -/
def isEnum (c : Candidate) (config : Config) : Bool :=
  match c.kind with
  | .enumeration _ _ => true
  | .object name _ => config.isEnum name
  | _ => false

def referenceFrom? (c : Candidate) (config : Config) (owner : Text) : Option Reference :=
  c.reference?.map fun name => Reference.ofName name (c.isEnum config) owner

/-- What the module of `owner` imports for the candidate. -/
def import? (c : Candidate) (config : Config) (owner : Text) : Option Import :=
  (c.referenceFrom? config owner).bind Reference.imported

def isJson (c : Candidate) : Bool :=
  c.kind == .scalar .json

def listed (c : Candidate) (e : Expr) : Expr :=
  if c.isList then .list e else e

/-- The validator of the candidate's values: a scalar validator, or a deferred reference, which for
an object has the type of the client.  None if there is no validator. -/
def branch (c : Candidate) (config : Config) (owner : Text) : Option Expr :=
  match c.kind with
  | .scalar k => some (c.listed (.scalar k.validator))
  | .enumeration name _ =>
    let r := Reference.ofName name true owner
    some (c.listed (.deferred (.ref r.ident)))
  | .object name .generated =>
    let r := Reference.ofName name (config.isEnum name) owner
    let target := if c.isList then r.typeName ++ "[]" else r.typeName
    some (.cast (c.listed (.deferred (.ref r.ident))) target)
  | .object _ .library => none
  | .unsupported _ => none

/-- The name of a generated object type. -/
def generatedObject? (c : Candidate) : Option Text :=
  match c.kind with
  | .object name .generated => some name
  | _ => none

end Candidate

/-! ### Fields -/

namespace InputField

/-- The alternatives of the candidates, each optional on its own if the field is not required. -/
def alternatives (f : InputField) (config : Config) (owner : Text) : List Expr :=
  f.candidates.filterMap fun c =>
    (c.branch config owner).map fun e => if f.isRequired then e else e.markOptional

/-- A filter field that has a list among several alternatives offers only lists. -/
def kept (name : Text) (es : List Expr) : List Expr :=
  if isFilterField name ∧ es.length > 1 ∧ es.any Expr.isList then es.filter Expr.isList else es

/-- The expression of alternatives that are left: the only one, or the union of all.  A union takes
the client type of the first object among the candidates. -/
def combined (f : InputField) (es : List Expr) : Option Expr :=
  let m := Modifier.ofField f.isRequired f.isNullable (isRelationField f.name)
  match es with
  | [] => none
  | [e] => some (m.apply e)
  | es =>
    let union := m.apply (.union (es.map Expr.stripOptional))
    match f.candidates.findSome? Candidate.generatedObject? with
    | some name => some (.cast union (whereInputOf name))
    | none => some union

/-- The validator of the field, none if no candidate has one. -/
def validator (f : InputField) (config : Config) (owner : Text) : Option Expr :=
  (f.combined (kept f.name (f.alternatives config owner))).map fun e =>
    if isRelationField f.name then e.stripNullable else e

/-- The first name of the field that cannot be written into the module of `owner`. -/
def violation? (f : InputField) (owner : Text) : Option Violation :=
  if !Text.isIdentifier f.name then some (.fieldName owner f.name)
  else (f.candidates.find? fun c => !c.isWritable).bind fun c =>
    c.reference?.map fun name => .candidateName owner f.name name

/-- The candidates that are looked at: all of them, or those before the first that cannot be
written. -/
def looked (f : InputField) : List Candidate :=
  if Text.isIdentifier f.name then f.candidates.takeWhile Candidate.isWritable else []

end InputField

/-! ### Modules -/

/-- What a module needs besides its expression, as far as its fields have been looked at. -/
structure Scope where
  imports : ImportList
  usesJson : Bool

namespace Scope

def empty : Scope := ⟨.empty, false⟩

def addCandidate (config : Config) (owner : Text) (s : Scope) (c : Candidate) : Scope where
  imports := match c.import? config owner with
    | some i => s.imports.insert i
    | none => s.imports
  usesJson := s.usesJson || c.isJson

def addField (config : Config) (owner : Text) (s : Scope) (f : InputField) : Scope :=
  f.looked.foldl (addCandidate config owner) s

/-- Resolves a field of `owner`: the scope after it, and its entry in the object, if it has one. -/
def resolve (config : Config) (owner : Text) (s : Scope) (f : InputField) :
    Scope × Except Violation (Option (Text × Expr)) :=
  (s.addField config owner f,
    match f.violation? owner with
    | some v => .error v
    | none => .ok ((f.validator config owner).map (f.name, ·)))

end Scope

end QueryValidator
