import QueryValidator.Document
import QueryValidator.Zod.Expr

/-!
# Input types

Input types as validators are built from them: each field has candidates, the types a value of it
may have.  A candidate that no validator exists for is `unsupported`.
-/

namespace QueryValidator

inductive ScalarKind where
  | string
  | int
  | float
  | decimal
  | bigInt
  | boolean
  | dateTime
  | json
  | literalTrue
  | bytes
deriving DecidableEq, Repr

namespace ScalarKind

def all : List ScalarKind :=
  [.string, .int, .float, .decimal, .bigInt, .boolean, .dateTime, .json, .literalTrue, .bytes]

def name : ScalarKind → Text
  | .string => "String"
  | .int => "Int"
  | .float => "Float"
  | .decimal => "Decimal"
  | .bigInt => "BigInt"
  | .boolean => "Boolean"
  | .dateTime => "DateTime"
  | .json => "Json"
  | .literalTrue => "True"
  | .bytes => "Bytes"

def ofName? (t : Text) : Option ScalarKind :=
  all.find? fun k => k.name == t

/-- The validator of the values of a scalar type. -/
def validator : ScalarKind → Zod.Scalar
  | .string => .string
  | .int => .number
  | .float => .number
  | .decimal => .number
  | .bigInt => .bigInt
  | .boolean => .boolean
  | .dateTime => .date
  | .json => .json
  | .literalTrue => .literalTrue
  | .bytes => .buffer

end ScalarKind

/-- Whose declaration a type is. -/
inductive Provenance where
  /-- A module of it is generated. -/
  | generated
  /-- The client declares it. -/
  | library
deriving DecidableEq, Repr

inductive CandidateKind where
  | scalar (kind : ScalarKind)
  | enumeration (name : Text) (provenance : Provenance)
  | object (name : Text) (provenance : Provenance)
  | unsupported (name : Text)
deriving DecidableEq, Repr

/-- A type that a value of a field may have. -/
structure Candidate where
  kind : CandidateKind
  isList : Bool
deriving DecidableEq, Repr

/-- The types of the model namespace are the client's own. -/
def Provenance.ofNamespace : Option Namespace → Provenance
  | some .model => .library
  | _ => .generated

def Candidate.ofTypeRef (r : TypeRef) : Candidate where
  isList := r.isList
  kind := match r.location with
    | .scalar => match ScalarKind.ofName? r.typeName with
      | some k => .scalar k
      | none => .unsupported r.typeName
    | .enumTypes => .enumeration r.typeName (.ofNamespace r.declaredIn)
    | .inputObjectTypes => .object r.typeName (.ofNamespace r.declaredIn)
    | .outputObjectTypes => .unsupported r.typeName
    | .fieldRefTypes => .unsupported r.typeName

structure InputField where
  name : Text
  isRequired : Bool
  isNullable : Bool
  candidates : List Candidate
deriving DecidableEq, Repr

def InputField.ofArgument (a : Argument) : InputField :=
  ⟨a.name, a.isRequired, a.isNullable, a.inputTypes.map Candidate.ofTypeRef⟩

structure InputObject where
  name : Text
  fields : List InputField
  constraints : Constraints
deriving DecidableEq, Repr

def InputObject.ofInputType (t : InputType) : InputObject :=
  ⟨t.name, t.fields.map InputField.ofArgument, t.constraints⟩

/-! ### Unique lookups -/

/-- The type describes the lookup of one record. -/
def isUniqueLookup (name : Text) : Bool :=
  Text.occursIn "WhereUniqueInput" name

namespace InputObject

/-- The constraints of a unique lookup make this field required: every field if exactly one has to
be given, and otherwise the fields that they list. -/
def demands (o : InputObject) (field : Text) : Bool :=
  if o.constraints.min = some 1 ∧ o.constraints.max = some 1 then true
  else (o.constraints.fields.getD []).contains field

/-- Marks the fields that the constraints of a unique lookup make required. -/
def markRequired (o : InputObject) : InputObject :=
  if isUniqueLookup o.name then
    { o with fields := o.fields.map fun f =>
        if o.demands f.name then { f with isRequired := true } else f }
  else o

end InputObject

end QueryValidator
