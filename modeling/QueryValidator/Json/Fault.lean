import QueryValidator.Text.Shown
import QueryValidator.Number.Shortest

/-!
# Faults of JSON input

Three kinds of fault are told apart: the text ends too early (`unfinished`), it is not JSON
(`malformed`), or it is JSON of another shape than the one expected (`mismatch`).
-/

namespace QueryValidator.Json

/-- What the text ended inside of. -/
inductive Unfinished where
  | list | object | string | value
deriving DecidableEq, Repr

inductive Malformed where
  | expectedColon
  | expectedListEnd
  | expectedObjectEnd
  | expectedWord
  | expectedValue
  | invalidEscape
  | invalidNumber
  | numberOutOfRange
  | controlCharacter
  | keyMustBeString
  | loneSurrogate
  | unfinishedPair
  | trailingComma
  | trailingCharacters
  | tooDeep
deriving DecidableEq, Repr

/-- What was found in the place of the value wanted. -/
inductive Found where
  | null
  | bool (b : Bool)
  | nat (n : Nat)
  | negative (n : Nat)
  | double (x : Binary64)
  | string (t : Text)
  | sequence
  | map
deriving DecidableEq, Repr

inductive Mismatch where
  | type (found : Found) (wanted : Text)
  | value (found : Found) (wanted : Text)
  | length (n : Nat) (wanted : Text)
  | variant (name : Text) (known : List Text)
  | missing (key : Text)
  | repeated (key : Text)
deriving DecidableEq, Repr

inductive Fault where
  | unfinished (inside : Unfinished)
  | malformed (cause : Malformed)
  | mismatch (cause : Mismatch)
deriving DecidableEq, Repr

def Unfinished.message : Unfinished → Text
  | .list => "EOF while parsing a list"
  | .object => "EOF while parsing an object"
  | .string => "EOF while parsing a string"
  | .value => "EOF while parsing a value"

def Malformed.message : Malformed → Text
  | .expectedColon => "expected `:`"
  | .expectedListEnd => "expected `,` or `]`"
  | .expectedObjectEnd => "expected `,` or `\x7d`"
  | .expectedWord => "expected ident"
  | .expectedValue => "expected value"
  | .invalidEscape => "invalid escape"
  | .invalidNumber => "invalid number"
  | .numberOutOfRange => "number out of range"
  | .controlCharacter => "control character (\\u0000-\\u001F) found while parsing a string"
  | .keyMustBeString => "key must be a string"
  | .loneSurrogate => "lone leading surrogate in hex escape"
  | .unfinishedPair => "unexpected end of hex escape"
  | .trailingComma => "trailing comma"
  | .trailingCharacters => "trailing characters"
  | .tooDeep => "recursion limit exceeded"

def ticked (t : Text) : Text :=
  "`" ++ t ++ "`"

def Found.message : Found → Text
  | .null => "null"
  | .bool b => "boolean " ++ ticked (if b then "true" else "false")
  | .nat n => "integer " ++ ticked (Text.ofNat n)
  | .negative n => "integer " ++ ticked ('-' :: Text.ofNat n)
  | .double x => "floating point " ++ ticked x.text
  | .string t => "string " ++ t.shown
  | .sequence => "sequence"
  | .map => "map"

/-- The names that would have been right: alone, both of two, or listed. -/
def knownText (known : List Text) : Text :=
  match known with
  | [] => "there are no variants"
  | [a] => "expected " ++ ticked a
  | [a, b] => "expected " ++ ticked a ++ " or " ++ ticked b
  | _ => "expected one of " ++ Text.joinWith ", " (known.map ticked)

def Mismatch.message : Mismatch → Text
  | .type found wanted => "invalid type: " ++ found.message ++ ", expected " ++ wanted
  | .value found wanted => "invalid value: " ++ found.message ++ ", expected " ++ wanted
  | .length n wanted => "invalid length " ++ Text.ofNat n ++ ", expected " ++ wanted
  | .variant name known => "unknown variant " ++ ticked name ++ ", " ++ knownText known
  | .missing key => "missing field " ++ ticked key
  | .repeated key => "duplicate field " ++ ticked key

def Fault.message : Fault → Text
  | .unfinished w => w.message
  | .malformed c => c.message
  | .mismatch c => c.message

end QueryValidator.Json
