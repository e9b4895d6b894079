import QueryValidator.Text.Quoted
import QueryValidator.Number.Shortest

/-!
# JSON values

The members of an object are sorted by key and a key occurs once.  `Json.text` writes a value
without blanks.
-/

namespace QueryValidator

/-- Integers that fit 64 bits are exact, all other numbers are doubles. -/
inductive JsonNumber where
  | nat (n : Nat)
  /-- The number `-n`, for `n` other than zero. -/
  | negative (n : Nat)
  | double (x : Binary64)
deriving DecidableEq, Repr

inductive Json where
  | null
  | bool (b : Bool)
  | number (n : JsonNumber)
  | string (t : Text)
  | array (items : List Json)
  | object (members : List (Text × Json))

def JsonNumber.text : JsonNumber → Text
  | .nat n => Text.ofNat n
  | .negative n => '-' :: Text.ofNat n
  | .double x => x.text

namespace Json

/-- The object with the given members. -/
def ofMembers (members : List (Text × Json)) : Json :=
  .object (Text.tableOf members)

def member? (key : Text) : Json → Option Json
  | .object members => members.lookup key
  | _ => none

mutual

/-- The value as JSON text without blanks. -/
def text : Json → Text
  | .null => "null"
  | .bool true => "true"
  | .bool false => "false"
  | .number n => n.text
  | .string t => t.quoted
  | .array items => '[' :: (Text.joinWith "," (itemTexts items) ++ "]")
  | .object members => '{' :: (Text.joinWith "," (memberTexts members) ++ ['}'])

def itemTexts : List Json → List Text
  | [] => []
  | v :: vs => text v :: itemTexts vs

def memberTexts : List (Text × Json) → List Text
  | [] => []
  | m :: ms => memberText m :: memberTexts ms

def memberText : Text × Json → Text
  | (k, v) => k.quoted ++ ':' :: text v

end

end Json

end QueryValidator
