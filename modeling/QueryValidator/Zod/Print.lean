import QueryValidator.Text.Quoted
import QueryValidator.Zod.Expr

/-!
# The text of validator expressions

`Expr.text` writes an expression on one line.  `Expr.pretty` differs from it in one case: an object
with fields, alone or under method calls, has one line for each field.
-/

namespace QueryValidator.Zod

/-- The validator of arbitrary JSON, declared in each module that uses it. -/
def jsonIdent : Text := "jsonSchema"

def Scalar.text : Scalar → Text
  | .string => "z.string()"
  | .number => "z.number()"
  | .bigInt => "z.bigint()"
  | .boolean => "z.boolean()"
  | .date => "z.coerce.date()"
  | .json => jsonIdent
  | .literalTrue => "z.literal(true)"
  | .buffer => "z.instanceof(Buffer)"

namespace Expr

/-- A cast binds looser than a method call, so as a receiver it stands in parentheses. -/
def receiver (e : Expr) (t : Text) : Text :=
  if e.isCast then "(" ++ t ++ ")" else t

/-- The list of the given texts in brackets. -/
def bracketed (ts : List Text) : Text :=
  "[" ++ Text.joinWith ", " ts ++ "]"

mutual

def text : Expr → Text
  | .scalar s => s.text
  | .ref ident => ident
  | .deferred e => "z.lazy(() => " ++ text e ++ ")"
  | .list e => receiver e (text e) ++ ".array()"
  | .optional e => receiver e (text e) ++ ".optional()"
  | .nullable e => receiver e (text e) ++ ".nullable()"
  | .strict e => receiver e (text e) ++ ".strict()"
  | .cast e target => text e ++ " as z.ZodType<Prisma." ++ target ++ ">"
  | .union es => "z.union(" ++ bracketed (texts es) ++ ")"
  | .object [] => "z.object(\x7b\x7d)"
  | .object (f :: fs) =>
    "z.object(\x7b " ++ Text.joinWith ", " (fieldText f :: fieldTexts fs) ++ " \x7d)"
  | .enumeration values => "z.enum(" ++ bracketed (values.map Text.quoted) ++ ")"

def texts : List Expr → List Text
  | [] => []
  | e :: es => text e :: texts es

def fieldTexts : List (Text × Expr) → List Text
  | [] => []
  | f :: fs => fieldText f :: fieldTexts fs

def fieldText : Text × Expr → Text
  | (key, e) => key ++ ": " ++ text e

end

/-- A field on a line of its own. -/
def fieldLine (t : Text) : Text :=
  "  " ++ t ++ ",\n"

def pretty : Expr → Text
  | .list e => receiver e (pretty e) ++ ".array()"
  | .optional e => receiver e (pretty e) ++ ".optional()"
  | .nullable e => receiver e (pretty e) ++ ".nullable()"
  | .strict e => receiver e (pretty e) ++ ".strict()"
  | .object (f :: fs) => "z.object(\x7b\n" ++ (fieldTexts (f :: fs)).flatMap fieldLine ++ "\x7d)"
  | e => text e

end Expr

end QueryValidator.Zod
