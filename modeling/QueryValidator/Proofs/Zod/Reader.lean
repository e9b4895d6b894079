import QueryValidator.Json.Scan
import QueryValidator.Zod.Print
import Mathlib.Data.List.Infix

/-!
# Reading validator expressions

A reader for the one-line text of expressions. An expression is a head with suffixes behind it. The
head is a cast in parentheses, a name, or one of the calls of `z`; a suffix is a method call or a
cast. `ofText?` takes a whole text.
-/

namespace QueryValidator

/-- What stands after `front` at the front of `t`. -/
def Text.after? (front t : Text) : Option Text :=
  front.isPrefixOf? t

theorem Text.after?_eq_some_iff {front t rest : Text} :
    Text.after? front t = some rest ↔ front ++ rest = t :=
  List.isPrefixOf?_eq_some_iff_append_eq

@[simp] theorem Text.after?_append (front rest : Text) :
    Text.after? front (front ++ rest) = some rest :=
  Text.after?_eq_some_iff.mpr rfl

namespace Zod.Expr

/-! ### Suffixes -/

/-- The method calls that may stand behind an expression. -/
def methods : List (Text × (Expr → Expr)) :=
  [(".array()", .list), (".optional()", .optional), (".nullable()", .nullable),
    (".strict()", .strict)]

theorem eq_of_mem_methods {m : Text × (Expr → Expr)} (h : m ∈ methods) :
    m = (".array()".toList, .list) ∨ m = (".optional()".toList, .optional) ∨
      m = (".nullable()".toList, .nullable) ∨ m = (".strict()".toList, .strict) := by
  unfold methods at h
  simpa only [List.mem_cons, List.not_mem_nil, or_false] using h

theorem list_mem_methods : (".array()".toList, Expr.list) ∈ methods := .head _

theorem optional_mem_methods : (".optional()".toList, Expr.optional) ∈ methods := .tail _ (.head _)

theorem nullable_mem_methods : (".nullable()".toList, Expr.nullable) ∈ methods :=
  .tail _ (.tail _ (.head _))

theorem strict_mem_methods : (".strict()".toList, Expr.strict) ∈ methods :=
  .tail _ (.tail _ (.tail _ (.head _)))

theorem text_method {m : Text × (Expr → Expr)} (hm : m ∈ methods) (e : Expr) :
    (m.2 e).text = e.receiver e.text ++ m.1 := by
  rcases eq_of_mem_methods hm with rfl | rfl | rfl | rfl <;> rfl

def readMethod? (e : Expr) (t : Text) : Option (Expr × Text) :=
  methods.findSome? fun (call, wrap) => (Text.after? call t).map (wrap e, ·)

def castStart : Text := " as z.ZodType<Prisma."

/-- A cast behind `e`; its target ends before `>`. -/
def readCast? (e : Expr) (t : Text) : Option (Expr × Text) :=
  (Text.after? castStart t).bind fun r =>
    match r.dropWhile (· != '>') with
    | [] => none
    | _ :: rest => some (.cast e (r.takeWhile (· != '>')), rest)

def readSuffix? (e : Expr) (t : Text) : Option (Expr × Text) :=
  (readMethod? e t).or (readCast? e t)

theorem readSuffix?_shorter {e e' : Expr} {t r : Text} (h : readSuffix? e t = some (e', r)) :
    r.length < t.length := by
  rcases Option.or_eq_some_iff.mp h with h | ⟨-, h⟩
  · obtain ⟨⟨call, wrap⟩, hm, h⟩ := List.exists_of_findSome?_eq_some h
    obtain ⟨rest, hrest, he⟩ := Option.map_eq_some_iff.mp h
    have hmethods : ∀ m ∈ methods, 0 < m.1.length := by decide
    have hpos : 0 < call.length := hmethods _ hm
    cases he
    rw [← Text.after?_eq_some_iff.mp hrest, List.length_append]
    omega
  · obtain ⟨rest, hrest, he⟩ := Option.bind_eq_some_iff.mp h
    have hlen := (List.dropWhile_suffix (· != '>') (l := rest)).length_le
    split at he
    · cases he
    · next c tail hdrop =>
      cases he
      rw [hdrop, List.length_cons] at hlen
      rw [← Text.after?_eq_some_iff.mp hrest, List.length_append]
      omega

/-- All suffixes behind `e`, and the text after them. -/
def readSuffixes (e : Expr) (t : Text) : Expr × Text :=
  match _h : readSuffix? e t with
  | some (e', r) => readSuffixes e' r
  | none => (e, t)
termination_by t.length
decreasing_by exact readSuffix?_shorter _h

/-! ### Heads -/

/-- Items with a comma and a blank between them, up to `stop`; there are no more than `bound`. -/
def readItems {α : Type} (item : Text → Option (α × Text)) (stop : Text) :
    (bound : Nat) → Text → Option (List α × Text)
  | 0, _ => none
  | n + 1, t => do
    let (x, r) ← item t
    match Text.after? ", " r with
    | some r =>
      let (xs, r) ← readItems item stop n r
      return (x :: xs, r)
    | none =>
      let r ← Text.after? stop r
      return ([x], r)

/-- Any number of items up to `stop`. -/
def readList {α : Type} (item : Text → Option (α × Text)) (stop t : Text) :
    Option (List α × Text) :=
  (readItems item stop (t.length + 1) t).or ((Text.after? stop t).map ([], ·))

def readQuoted : Text → Option (Text × Text)
  | '"' :: r => (Json.readString r).toOption
  | _ => none

/-- A key and the expression behind it, which is read by `item`. -/
def readField (item : Text → Option (Expr × Text)) (t : Text) :
    Option ((Text × Expr) × Text) := do
  let r ← Text.after? ": " (t.dropWhile Text.isIdentifierPart)
  let (e, r) ← item r
  return ((t.takeWhile Text.isIdentifierPart, e), r)

/-- An expression and what closes it. -/
def readClosed (item : Text → Option (Expr × Text)) (close t : Text) : Option (Expr × Text) := do
  let (e, r) ← item t
  let r ← Text.after? close r
  return (e, r)

/-- The validators of scalars that are calls of `z`. -/
def calledScalars : List Scalar :=
  [.string, .number, .bigInt, .boolean, .date, .literalTrue, .buffer]

/-- How a call begins after `z`, and how the rest of it is read. -/
abbrev Call := Text × (Text → Option (Expr × Text))

def scalarCall (s : Scalar) : Call :=
  (s.text.drop 1, fun r => some (.scalar s, r))

def bracketCalls (item : Text → Option (Expr × Text)) : List Call :=
  [(".lazy(() => ", fun r => (readClosed item ")" r).map fun (e, r) => (.deferred e, r)),
    (".union([", fun r => (readList item "])" r).map fun (es, r) => (.union es, r)),
    (".object(\x7b\x7d)", fun r => some (.object [], r)),
    (".object(\x7b ", fun r =>
      (readList (readField item) " \x7d)" r).map fun (fs, r) => (.object fs, r)),
    (".enum([", fun r => (readList readQuoted "])" r).map fun (vs, r) => (.enumeration vs, r))]

/-- The calls of `z`. -/
def calls (item : Text → Option (Expr × Text)) : List Call :=
  calledScalars.map scalarCall ++ bracketCalls item

/-- A name, or the call of `z` that begins with it. -/
def readNamed (item : Text → Option (Expr × Text)) (name r : Text) : Option (Expr × Text) :=
  if name = [] then none
  else if name = jsonIdent then some (.scalar .json, r)
  else if name = ['z'] then
    ((calls item).findSome? fun (start, read) => (Text.after? start r).map read).getD
      (some (.ref name, r))
  else some (.ref name, r)

def readHead (item : Text → Option (Expr × Text)) : Text → Option (Expr × Text)
  | '(' :: r => readClosed item ")" r
  | t => readNamed item (t.takeWhile Text.isIdentifierPart) (t.dropWhile Text.isIdentifierPart)

/-- The expression at the front, which nests to no more than `depth` levels. -/
def readExpr : (depth : Nat) → Text → Option (Expr × Text)
  | 0, _ => none
  | n + 1, t => (readHead (readExpr n) t).map fun (e, r) => readSuffixes e r

/-- The expression that is the whole text; it nests to no more levels than the text has characters.
-/
def ofText? (t : Text) : Option Expr :=
  match readExpr t.length t with
  | some (e, []) => some e
  | _ => none

end Zod.Expr

end QueryValidator
