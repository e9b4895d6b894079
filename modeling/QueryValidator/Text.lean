/-!
# Text

Text is a list of characters, so that a reader can take it apart from the front and a statement
about it is one about lists.  A string literal stands for its characters.  `cut?` looks for the
first occurrence of a mark, `dropEnding?` for an ending.
-/

namespace QueryValidator

abbrev Text := List Char

instance : Coe String Text := ⟨String.toList⟩

namespace Text

/-- What stands before `ending` at the end of `t`. -/
def dropEnding? (ending t : Text) : Option Text :=
  ending.isSuffixOf? t

/-- The text before and after the first occurrence of `mark`. -/
def cut? (mark : Text) : Text → Option (Text × Text)
  | [] => if mark.isEmpty then some ([], []) else none
  | c :: r =>
    match mark.isPrefixOf? (c :: r) with
    | some rest => some ([], rest)
    | none => (cut? mark r).map fun (before, rest) => (c :: before, rest)

/-- `mark` occurs somewhere in `t`. -/
def occursIn (mark t : Text) : Bool :=
  (cut? mark t).isSome

/-- The pieces of `t` between the occurrences of the character `c`; there is always one. -/
def splitAt (c : Char) : Text → List Text
  | [] => [[]]
  | x :: r =>
    if x = c then [] :: splitAt c r
    else match splitAt c r with
      | [] => [[x]]
      | p :: ps => (x :: p) :: ps

def joinWith (separator : Text) (parts : List Text) : Text :=
  separator.intercalate parts

/-- The decimal digits of `n`. -/
def ofNat (n : Nat) : Text :=
  Nat.toDigits 10 n

/-- The hexadecimal digits of `n`, in lower case. -/
def hexOfNat (n : Nat) : Text :=
  Nat.toDigits 16 n

/-- Letters, digits, `_` and `$` of ASCII, with no digit in front. -/
def isIdentifierStart (c : Char) : Bool :=
  c.isAlpha || c == '_' || c == '$'

def isIdentifierPart (c : Char) : Bool :=
  c.isAlphanum || c == '_' || c == '$'

/-- A name that may be written into generated code as it stands. -/
def isIdentifier : Text → Bool
  | [] => false
  | c :: r => isIdentifierStart c && r.all isIdentifierPart

/-- The number of bytes of `t` in UTF-8. -/
def utf8Size : Text → Nat
  | [] => 0
  | c :: r => c.utf8Size + utf8Size r

/-- Inserts `t` into a list that is sorted by code points and free of repetitions. -/
def insertSorted (t : Text) : List Text → List Text
  | [] => [t]
  | x :: xs => if t = x then x :: xs else if t < x then t :: x :: xs else x :: insertSorted t xs

/-- The distinct members of `ts`, sorted by code points. -/
def sortedSet (ts : List Text) : List Text :=
  ts.foldl (fun acc t => insertSorted t acc) []

/-- Gives `key` the value `v` in a table that is sorted by its keys. -/
def setKey {α : Type} (key : Text) (v : α) : List (Text × α) → List (Text × α)
  | [] => [(key, v)]
  | (k, w) :: r =>
    if key = k then (k, v) :: r
    else if key < k then (key, v) :: (k, w) :: r
    else (k, w) :: setKey key v r

/-- The table with the given entries; the last value given for a key stands. -/
def tableOf {α : Type} (entries : List (Text × α)) : List (Text × α) :=
  entries.foldl (fun acc (k, v) => setKey k v acc) []

/-- White space in the sense of Unicode. -/
def isBlankChar (c : Char) : Bool :=
  let n := c.toNat
  (9 ≤ n && n ≤ 13) || n == 0x20 || n == 0x85 || n == 0xA0 || n == 0x1680
    || (0x2000 ≤ n && n ≤ 0x200A) || n == 0x2028 || n == 0x2029 || n == 0x202F || n == 0x205F
    || n == 0x3000

def isBlank (t : Text) : Bool :=
  t.all isBlankChar

end Text

end QueryValidator
