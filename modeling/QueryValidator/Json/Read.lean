import QueryValidator.Json.Scan

/-!
# Reading JSON values

`Json.parse` reads a whole text as a value; a value nests to at most 127 levels.  `skip` passes over
a value of which only the form is checked, at any depth.  In all readers `bound` is more than the
number of members that an array or object can have in the text, so that it never runs out.
-/

namespace QueryValidator.Json

/-- The levels of arrays and objects a value may have. -/
def maxDepth : Nat := 127

/-- Reads the value at the front, which may nest to `levels` levels. -/
def read (bound : Nat) : (levels : Nat) → Text → Except Fault (Json × Text)
  | levels, t =>
    match skipBlanks t with
    | [] => .error (.unfinished .value)
    | 'n' :: r => (word "ull" r).map (Json.null, ·)
    | 't' :: r => (word "rue" r).map (Json.bool true, ·)
    | 'f' :: r => (word "alse" r).map (Json.bool false, ·)
    | '-' :: r => (readNumber true r).map fun (n, rest) => (Json.number n, rest)
    | '"' :: r => (readString r).map fun (s, rest) => (Json.string s, rest)
    | '[' :: r =>
      match levels with
      | 0 => .error (.malformed .tooDeep)
      | n + 1 => (elements (fun r => read bound n r) bound true r).map fun (vs, rest) =>
          (Json.array vs, rest)
    | '{' :: r =>
      match levels with
      | 0 => .error (.malformed .tooDeep)
      | n + 1 =>
        let step := fun (key : Text) (ms : List (Text × Json)) (r : Text) => do
          let (v, r) ← read bound n (← colon r)
          return (Text.setKey key v ms, r)
        (members step bound true [] r).map fun (ms, rest) => (Json.object ms, rest)
    | c :: r =>
      if c.isDigit then (readNumber false (c :: r)).map fun (n, rest) => (Json.number n, rest)
      else .error (.malformed .expectedValue)

/-- More than the number of members of any array or object in `t`, as each takes a character. -/
def memberBound (t : Text) : Nat :=
  t.length + 1

/-- Reads a whole text. -/
def parse (t : Text) : Except Fault Json := do
  let (v, rest) ← read (memberBound t) maxDepth t
  atEnd rest
  return v

/-- Passes over the value at the front, which nests to no more than `levels` levels. -/
def skipUpTo (bound : Nat) : (levels : Nat) → Text → Except Fault Text
  | levels, t =>
    match skipBlanks t with
    | [] => .error (.unfinished .value)
    | 'n' :: r => word "ull" r
    | 't' :: r => word "rue" r
    | 'f' :: r => word "alse" r
    | '-' :: r => skipNumber r
    | '"' :: r => skipString r
    | '[' :: r =>
      match levels with
      | 0 => .error (.unfinished .list)
      | n + 1 => skipElements (fun r => skipUpTo bound n r) bound true r
    | '{' :: r =>
      match levels with
      | 0 => .error (.unfinished .object)
      | n + 1 => skipMembers (fun r => skipUpTo bound n r) bound true r
    | c :: r => if c.isDigit then skipNumber (c :: r) else .error (.malformed .expectedValue)
where
  skipElements (item : Text → Except Fault Text) :
      (bound : Nat) → (first : Bool) → Text → Except Fault Text
    | 0, _, _ => .error (.unfinished .list)
    | n + 1, first, t => do
      match ← nextSkipped first t with
      | none => closeArray t
      | some r => skipElements item n false (← item r)
  /-- The members of an object whose keys are not needed either. -/
  skipMembers (value : Text → Except Fault Text) :
      (bound : Nat) → (first : Bool) → Text → Except Fault Text
    | 0, _, _ => .error (.unfinished .object)
    | n + 1, first, t => do
      match ← nextSkippedKey first t with
      | none => closeObject t
      | some r => skipMembers value n false (← value (← colon (← skipString r)))

/-- Passes over the value at the front, however deep it is: a level takes a character too. -/
def skip (bound : Nat) (t : Text) : Except Fault Text :=
  skipUpTo bound bound t

end QueryValidator.Json
