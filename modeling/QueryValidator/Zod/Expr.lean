import QueryValidator.Text

/-!
# Validator expressions

The Zod expressions that generated modules are made of.  `optional` and `nullable` mark an
expression at most once; `stripOptional` and `stripNullable` take the marks off again, the latter
along a whole chain of modifiers and casts.
-/

namespace QueryValidator.Zod

inductive Scalar where
  | string
  | number
  | bigInt
  | boolean
  | date
  | json
  | literalTrue
  | buffer
deriving DecidableEq, Repr

inductive Expr where
  | scalar (s : Scalar)
  /-- An identifier that is read when the module is loaded. -/
  | ref (ident : Text)
  /-- An expression that is first evaluated when it is used. -/
  | deferred (inner : Expr)
  | list (item : Expr)
  | optional (inner : Expr)
  | nullable (inner : Expr)
  /-- The inner expression with the type of the client named `target`. -/
  | cast (inner : Expr) (target : Text)
  | union (alternatives : List Expr)
  | object (fields : List (Text × Expr))
  /-- An object that refuses keys it does not name. -/
  | strict (inner : Expr)
  | enumeration (values : List Text)

namespace Expr

/-- Marks the expression optional unless it is so at the outside. -/
def markOptional : Expr → Expr
  | .optional e => .optional e
  | e => .optional e

/-- Marks the expression nullable unless it is so at the outside. -/
def markNullable : Expr → Expr
  | .nullable e => .nullable e
  | e => .nullable e

/-- Takes off an outermost optional mark. -/
def stripOptional : Expr → Expr
  | .optional e => e
  | e => e

/-- Takes every nullable mark off the outer chain of modifiers and casts. -/
def stripNullable : Expr → Expr
  | .nullable e => stripNullable e
  | .optional e => .optional (stripNullable e)
  | .cast e target => .cast (stripNullable e) target
  | e => e

/-- The values accepted are arrays, modifiers and casts aside. -/
def isList : Expr → Bool
  | .list _ => true
  | .optional e => isList e
  | .nullable e => isList e
  | .cast e _ => isList e
  | _ => false

def isNullable : Expr → Bool
  | .nullable _ => true
  | .optional e => isNullable e
  | .cast e _ => isNullable e
  | _ => false

def isCast : Expr → Bool
  | .cast _ _ => true
  | _ => false

end Expr

end QueryValidator.Zod
