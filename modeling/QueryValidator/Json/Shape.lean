import QueryValidator.Json.Read
import QueryValidator.Text.Table

/-!
# Shapes of JSON documents

A `Shape α` describes the JSON form of an `α`, once for two readers: `Shape.ofText` reads text from
the front and reports the first fault in the order of the text, `Shape.ofJson` reads a value that
has been parsed before.  A record is an object whose unknown members are passed over, or an array of
its fields in their declared order.
-/

namespace QueryValidator.Json

/-- What stands for a field that is not given. -/
inductive Absence (α : Type) where
  /-- The field has to be given. -/
  | required
  /-- The field may be missing from an object, but not from an array. -/
  | optional (value : α)
  /-- The field may be missing from an object and from an array. -/
  | default (value : α)

mutual

inductive Shape : Type → Type 1 where
  | text : Shape Text
  /-- A text that names a file. -/
  | path : Shape Text
  | flag : Shape Bool
  /-- A natural number below `2 ^ 32`. -/
  | count : Shape Nat
  | value : Shape Json
  /-- An object with any members. -/
  | table : Shape (Text.Table Json)
  | list {α : Type} (item : Shape α) : Shape (List α)
  /-- `null` or a value. -/
  | option {α : Type} (inner : Shape α) : Shape (Option α)
  /-- One of some names, as a string or as an object with that key and the value `null`. -/
  | choice {α : Type} (options : List (Text × α)) : Shape α
  | record {σ β α : Type} (name : Text) (fields : Fields σ β) (build : β → α) : Shape α

/-- The fields of a record in their declared order: `σ` is the type of the values seen so far, `β`
that of the complete row. -/
inductive Fields : Type → Type → Type 1 where
  | nil : Fields Unit Unit
  | cons {α σ β : Type} (key : Text) (shape : Shape α) (absence : Absence α)
      (rest : Fields σ β) : Fields (Option α × σ) (α × β)

end

namespace Fields

variable {α σ β : Type}

def required (key : Text) (shape : Shape α) (rest : Fields σ β) : Fields (Option α × σ) (α × β) :=
  .cons key shape .required rest

def optional (key : Text) (shape : Shape α) (rest : Fields σ β) :
    Fields (Option (Option α) × σ) (Option α × β) :=
  .cons key (.option shape) (.optional none) rest

def default (key : Text) (shape : Shape α) (value : α) (rest : Fields σ β) :
    Fields (Option α × σ) (α × β) :=
  .cons key shape (.default value) rest

/-- No field seen yet. -/
def empty : {σ β : Type} → Fields σ β → σ
  | _, _, .nil => ()
  | _, _, .cons _ _ _ rest => (none, rest.empty)

def size : {σ β : Type} → Fields σ β → Nat
  | _, _, .nil => 0
  | _, _, .cons _ _ _ rest => rest.size + 1

/-- The row after all members have been seen; the first missing field in the declared order is
reported. -/
def complete : {σ β : Type} → Fields σ β → σ → Except Fault β
  | _, _, .nil, _ => .ok ()
  | _, _, .cons key _ absence rest, (slot, slots) => do
    let v ← match slot, absence with
      | some v, _ => Except.ok v
      | none, .required => .error (.mismatch (.missing key))
      | none, .optional v => .ok v
      | none, .default v => .ok v
    return (v, ← rest.complete slots)

end Fields

/-- How a message names a record read from an array. -/
def recordText (name : Text) (size : Nat) : Text :=
  "struct " ++ name ++ " with " ++ Text.ofNat size ++ (if size = 1 then " element" else " elements")

def wrongType (found : Found) (wanted : Text) : Fault :=
  .mismatch (.type found wanted)

def JsonNumber.found : JsonNumber → Found
  | .nat n => .nat n
  | .negative n => .negative n
  | .double x => .double x

/-- The value of an array element that is not there. -/
def absentElement {α : Type} (absence : Absence α) (index : Nat) (whole : Text) : Except Fault α :=
  match absence with
  | .default v => .ok v
  | _ => .error (.mismatch (.length index whole))

/-- Counts are below this number, which is `2 ^ 32`. -/
def countLimit : Nat := 4294967296

/-- The number as a natural number below the limit. -/
def countOf (n : JsonNumber) : Except Fault Nat :=
  match n with
  | .nat n => if n < countLimit then .ok n else .error (.mismatch (.value (.nat n) "u32"))
  | .negative n => .error (.mismatch (.value (.negative n) "u32"))
  | .double x => .error (wrongType (.double x) "u32")

def variantOf {α : Type} (options : List (Text × α)) (name : Text) : Except Fault α :=
  match options.lookup name with
  | some v => .ok v
  | none => .error (.mismatch (.variant name (options.map Prod.fst)))

/-! ### Reading text -/

/-- The fault of a value at the front of `t` that is of the wrong type; a string, a number or a word
is read first and may be faulty itself. -/
def faultAt (wanted : Text) (t : Text) : Fault :=
  match t with
  | [] => .unfinished .value
  | 'n' :: r => match word "ull" r with
    | .ok _ => wrongType .null wanted
    | .error f => f
  | 't' :: r => match word "rue" r with
    | .ok _ => wrongType (.bool true) wanted
    | .error f => f
  | 'f' :: r => match word "alse" r with
    | .ok _ => wrongType (.bool false) wanted
    | .error f => f
  | '-' :: r => match readNumber true r with
    | .ok (n, _) => wrongType (JsonNumber.found n) wanted
    | .error f => f
  | '"' :: r => match readString r with
    | .ok (s, _) => wrongType (.string s) wanted
    | .error f => f
  | '[' :: _ => wrongType .sequence wanted
  | '{' :: _ => wrongType .map wanted
  | c :: r =>
    if c.isDigit then match readNumber false (c :: r) with
      | .ok (n, _) => wrongType (JsonNumber.found n) wanted
      | .error f => f
    else .malformed .expectedValue

def textAt (wanted : Text) (t : Text) : Except Fault (Text × Text) :=
  match skipBlanks t with
  | '"' :: r => readString r
  | r => .error (faultAt wanted r)

def flagAt (t : Text) : Except Fault (Bool × Text) :=
  match skipBlanks t with
  | 't' :: r => (word "rue" r).map (true, ·)
  | 'f' :: r => (word "alse" r).map (false, ·)
  | r => .error (faultAt "a boolean" r)

def countAt (t : Text) : Except Fault (Nat × Text) :=
  match skipBlanks t with
  | '-' :: r => do
    let (n, r) ← readNumber true r
    return (← countOf n, r)
  | c :: r =>
    if c.isDigit then do
      let (n, r) ← readNumber false (c :: r)
      return (← countOf n, r)
    else .error (faultAt "u32" (c :: r))
  | [] => .error (.unfinished .value)

/-- Takes `null` from the front. -/
def nullAt (wanted : Text) (t : Text) : Except Fault Text :=
  match skipBlanks t with
  | 'n' :: r => word "ull" r
  | r => .error (faultAt wanted r)

/-- The inside of an array or object: one level deeper, and never below the last. -/
def descend {α : Type} (levels : Nat) (inside : Nat → Except Fault α) : Except Fault α :=
  match levels with
  | 0 => .error (.malformed .tooDeep)
  | n + 1 => inside n

def choiceAt {α : Type} (options : List (Text × α)) (levels : Nat) (t : Text) :
    Except Fault (α × Text) :=
  match skipBlanks t with
  | [] => .error (.unfinished .value)
  | '"' :: r => do
    let (name, r) ← readString r
    return (← variantOf options name, r)
  | '{' :: r => descend levels fun _ => do
    let some r ← nextKey true r | .error (.malformed .expectedValue)
    let (name, r) ← readString r
    let v ← variantOf options name
    let r ← nullAt "unit" (← colon r)
    match skipBlanks r with
    | [] => .error (.unfinished .object)
    | '}' :: r => return (v, r)
    | _ => .error (.malformed .expectedValue)
  | _ => .error (.malformed .expectedValue)

mutual

/-- Reads the value at the front of a text, which may nest to `levels` levels. -/
def Shape.ofText (bound : Nat) :
    {α : Type} → Shape α → (levels : Nat) → Text → Except Fault (α × Text)
  | _, .text, _, t => textAt "a string" t
  | _, .path, _, t => textAt "path string" t
  | _, .flag, _, t => flagAt t
  | _, .count, _, t => countAt t
  | _, .value, levels, t => read bound levels t
  | _, .table, levels, t =>
    match skipBlanks t with
    | '{' :: r => descend levels fun n =>
      members (fun key table r => do
        let (v, r) ← read bound n (← colon r)
        return (table.set key v, r)) bound true .empty r
    | r => .error (faultAt "a map" r)
  | _, .list item, levels, t =>
    match skipBlanks t with
    | '[' :: r => descend levels fun n =>
      elements (fun r => item.ofText bound n r) bound true r
    | r => .error (faultAt "a sequence" r)
  | _, .option inner, levels, t =>
    match skipBlanks t with
    | 'n' :: r => (word "ull" r).map (none, ·)
    | _ => (inner.ofText bound levels t).map fun (v, r) => (some v, r)
  | _, .choice options, levels, t => choiceAt options levels t
  | _, .record name fields build, levels, t =>
    match skipBlanks t with
    | '[' :: r => descend levels fun n => do
      let (row, r) ← fields.elementsOfText bound n (recordText name fields.size) 0 true r
      return (build row, ← closeArray r)
    | '{' :: r => descend levels fun n => do
      let (slots, r) ← members (fun key slots r => fields.memberOfText bound n key slots r)
        bound true fields.empty r
      return (build (← fields.complete slots), r)
    | r => .error (faultAt ("struct " ++ name) r)

/-- Reads the colon and the value of the member `key`; an unknown member is passed over. -/
def Fields.memberOfText (bound : Nat) : {σ β : Type} → Fields σ β → (levels : Nat) →
    (key : Text) → σ → Text → Except Fault (σ × Text)
  | _, _, .nil, _, _, slots, t => do return (slots, ← skip bound (← colon t))
  | _, _, .cons k shape _ rest, levels, key, (slot, slots), t =>
    if key = k then
      match slot with
      | some _ => .error (.mismatch (.repeated k))
      | none => do
        let (v, r) ← shape.ofText bound levels (← colon t)
        return ((some v, slots), r)
    else do
      let (slots, r) ← rest.memberOfText bound levels key slots t
      return ((slot, slots), r)

/-- Reads the fields from the elements of an array, leaving its closing bracket. -/
def Fields.elementsOfText (bound : Nat) : {σ β : Type} → Fields σ β → (levels : Nat) →
    (whole : Text) → (index : Nat) → (first : Bool) → Text → Except Fault (β × Text)
  | _, _, .nil, _, _, _, _, t => .ok ((), t)
  | _, _, .cons _ shape absence rest, levels, whole, index, first, t => do
    match ← nextElement first t with
    | some r =>
      let (v, r) ← shape.ofText bound levels r
      let (row, r) ← rest.elementsOfText bound levels whole (index + 1) false r
      return ((v, row), r)
    | none =>
      let v ← absentElement absence index whole
      let (row, r) ← rest.elementsOfText bound levels whole (index + 1) first t
      return ((v, row), r)

end

/-! ### Reading values -/

def foundIn : Json → Found
  | .null => .null
  | .bool b => .bool b
  | .number n => JsonNumber.found n
  | .string t => .string t
  | .array _ => .sequence
  | .object _ => .map

def textIn (wanted : Text) : Json → Except Fault Text
  | .string t => .ok t
  | v => .error (wrongType (foundIn v) wanted)

def choiceIn {α : Type} (options : List (Text × α)) : Json → Except Fault α
  | .string name => variantOf options name
  | .object [(name, v)] => do
    let x ← variantOf options name
    match v with
    | .null => return x
    | v => .error (wrongType (foundIn v) "unit")
  | .object _ => .error (.mismatch (.value .map "map with a single key"))
  | v => .error (wrongType (foundIn v) "string or map")

mutual

/-- Reads a value that has been parsed; its members are looked at in the order of their keys. -/
def Shape.ofJson : {α : Type} → Shape α → Json → Except Fault α
  | _, .text, v => textIn "a string" v
  | _, .path, v => textIn "path string" v
  | _, .flag, v =>
    match v with
    | .bool b => .ok b
    | v => .error (wrongType (foundIn v) "a boolean")
  | _, .count, v =>
    match v with
    | .number n => countOf n
    | v => .error (wrongType (foundIn v) "u32")
  | _, .value, v => .ok v
  | _, .table, v =>
    match v with
    | .object ms => .ok (.ofEntries ms)
    | v => .error (wrongType (foundIn v) "a map")
  | _, .list item, v =>
    match v with
    | .array vs => vs.mapM fun v => item.ofJson v
    | v => .error (wrongType (foundIn v) "a sequence")
  | _, .option inner, v =>
    match v with
    | .null => .ok none
    | v => (inner.ofJson v).map some
  | _, .choice options, v => choiceIn options v
  | _, .record name fields build, v =>
    match v with
    | .array vs => do
      let (row, rest) ← fields.elementsOfJson (recordText name fields.size) 0 vs
      if rest.isEmpty then return build row
      else .error (.mismatch (.length vs.length "fewer elements in array"))
    | .object ms => do
      let slots ← ms.foldlM (fun slots (key, v) => fields.memberOfJson key v slots) fields.empty
      return build (← fields.complete slots)
    | v => .error (wrongType (foundIn v) ("struct " ++ name))

/-- Puts the member `key` into its slot; an unknown member is passed over. -/
def Fields.memberOfJson : {σ β : Type} → Fields σ β → (key : Text) → Json → σ → Except Fault σ
  | _, _, .nil, _, _, slots => .ok slots
  | _, _, .cons k shape _ rest, key, v, (slot, slots) =>
    if key = k then do return (some (← shape.ofJson v), slots)
    else do return (slot, ← rest.memberOfJson key v slots)

/-- Reads the fields from the front of a list and returns what is left of it. -/
def Fields.elementsOfJson : {σ β : Type} → Fields σ β → (whole : Text) → (index : Nat) →
    List Json → Except Fault (β × List Json)
  | _, _, .nil, _, _, vs => .ok ((), vs)
  | _, _, .cons _ shape _ rest, whole, index, v :: vs => do
    let x ← shape.ofJson v
    let (row, left) ← rest.elementsOfJson whole (index + 1) vs
    return ((x, row), left)
  | _, _, .cons _ _ absence rest, whole, index, [] => do
    let x ← absentElement absence index whole
    let (row, left) ← rest.elementsOfJson whole (index + 1) []
    return ((x, row), left)

end

/-- Reads a whole text as a document of the given shape. -/
def Shape.parse {α : Type} (shape : Shape α) (t : Text) : Except Fault α := do
  let (v, rest) ← shape.ofText (memberBound t) maxDepth t
  atEnd rest
  return v

end QueryValidator.Json
