import QueryValidator.Zod.Expr
import Mathlib.Logic.Basic

/-!
# What occurs in an expression

`x.OccursIn e` says that `x` stands somewhere in `e`. The outer chain of an expression consists of
its outermost modifiers and casts: `marks` are the modifiers on it, from the outside, and `core` is
what stands below it. A modifier that occurs in an expression is on its chain or occurs in its core
(`OccursIn.on_chain_or_in_core`).
-/

namespace QueryValidator.Zod.Expr

/-! ### Occurrences -/

/-- The expressions that stand directly below. -/
def parts : Expr → List Expr
  | .scalar _ => []
  | .ref _ => []
  | .deferred e => [e]
  | .list e => [e]
  | .optional e => [e]
  | .nullable e => [e]
  | .cast e _ => [e]
  | .union es => es
  | .object fs => fs.map Prod.snd
  | .strict e => [e]
  | .enumeration _ => []

/-- `x` is the expression or stands somewhere below it. -/
inductive OccursIn (x : Expr) : Expr → Prop
  | root : OccursIn x x
  | part {e p : Expr} (hp : p ∈ e.parts) (h : OccursIn x p) : OccursIn x e

section

variable {x e : Expr}

theorem occursIn_iff : x.OccursIn e ↔ x = e ∨ ∃ p ∈ e.parts, x.OccursIn p := by
  constructor
  · intro h
    cases h with
    | root => exact Or.inl rfl
    | part hp h => exact Or.inr ⟨_, hp, h⟩
  · rintro (rfl | ⟨p, hp, h⟩)
    · exact .root
    · exact .part hp h

theorem OccursIn.trans {y : Expr} (hx : x.OccursIn y) (hy : y.OccursIn e) : x.OccursIn e := by
  induction hy with
  | root => exact hx
  | part hp _ ih => exact .part hp ih

@[simp] theorem occursIn_scalar {s : Scalar} : x.OccursIn (.scalar s) ↔ x = .scalar s := by
  rw [occursIn_iff]
  simp [parts]

@[simp] theorem occursIn_ref {ident : Text} : x.OccursIn (.ref ident) ↔ x = .ref ident := by
  rw [occursIn_iff]
  simp [parts]

@[simp] theorem occursIn_deferred :
    x.OccursIn (.deferred e) ↔ x = .deferred e ∨ x.OccursIn e := by
  rw [occursIn_iff]
  simp [parts]

@[simp] theorem occursIn_list : x.OccursIn (.list e) ↔ x = .list e ∨ x.OccursIn e := by
  rw [occursIn_iff]
  simp [parts]

@[simp] theorem occursIn_optional :
    x.OccursIn (.optional e) ↔ x = .optional e ∨ x.OccursIn e := by
  rw [occursIn_iff]
  simp [parts]

@[simp] theorem occursIn_nullable :
    x.OccursIn (.nullable e) ↔ x = .nullable e ∨ x.OccursIn e := by
  rw [occursIn_iff]
  simp [parts]

@[simp] theorem occursIn_cast {target : Text} :
    x.OccursIn (.cast e target) ↔ x = .cast e target ∨ x.OccursIn e := by
  rw [occursIn_iff]
  simp [parts]

@[simp] theorem occursIn_union {es : List Expr} :
    x.OccursIn (.union es) ↔ x = .union es ∨ ∃ e ∈ es, x.OccursIn e :=
  occursIn_iff

@[simp] theorem occursIn_object {fs : List (Text × Expr)} :
    x.OccursIn (.object fs) ↔ x = .object fs ∨ ∃ f ∈ fs, x.OccursIn f.2 := by
  rw [occursIn_iff]
  simp only [parts, List.mem_map, exists_exists_and_eq_and]

@[simp] theorem occursIn_strict : x.OccursIn (.strict e) ↔ x = .strict e ∨ x.OccursIn e := by
  rw [occursIn_iff]
  simp [parts]

@[simp] theorem occursIn_enumeration {values : List Text} :
    x.OccursIn (.enumeration values) ↔ x = .enumeration values := by
  rw [occursIn_iff]
  simp [parts]

end

/-- Nothing can stand below a scalar validator or a reference, whatever it is called. -/
inductive IsAtom : Expr → Prop
  | scalar (s : Scalar) : IsAtom (.scalar s)
  | ref (ident : Text) : IsAtom (.ref ident)

/-! ### The outer chain -/

/-- What a modifier says of an expression. -/
inductive Mark where
  | optional
  | nullable
deriving DecidableEq, Repr

/-- The modifier that the expression is, if it is one. -/
def mark? : Expr → Option Mark
  | .optional _ => some .optional
  | .nullable _ => some .nullable
  | _ => none

/-- The modifiers on the outer chain, from the outside. -/
def marks : Expr → List Mark
  | .optional e => .optional :: marks e
  | .nullable e => .nullable :: marks e
  | .cast e _ => marks e
  | _ => []

/-- What stands below the outer chain. -/
def core : Expr → Expr
  | .optional e => core e
  | .nullable e => core e
  | .cast e _ => core e
  | e => e

/-- No modifier occurs in the expression. -/
def IsUnmarked (e : Expr) : Prop :=
  ∀ x : Expr, x.OccursIn e → x.mark? = none

theorem core_occursIn (e : Expr) : e.core.OccursIn e := by
  fun_induction core e with
  | case1 e ih => exact .part List.mem_cons_self ih
  | case2 e ih => exact .part List.mem_cons_self ih
  | case3 e target ih => exact .part List.mem_cons_self ih
  | case4 e => exact .root

theorem IsUnmarked.part {e p : Expr} (h : e.IsUnmarked) (hp : p ∈ e.parts) : p.IsUnmarked :=
  fun x hx => h x (.part hp hx)

theorem IsUnmarked.core {e : Expr} (h : e.IsUnmarked) : e.core.IsUnmarked :=
  fun x hx => h x (hx.trans e.core_occursIn)

theorem IsUnmarked.marks_eq_nil {e : Expr} (h : e.IsUnmarked) : e.marks = [] := by
  fun_induction marks e with
  | case1 e _ => exact absurd (h _ .root) (by simp [mark?])
  | case2 e _ => exact absurd (h _ .root) (by simp [mark?])
  | case3 e target ih => exact ih (h.part List.mem_cons_self)
  | case4 e => rfl

/-- A modifier in an expression is on its outer chain or below the chain. -/
theorem OccursIn.on_chain_or_in_core {x e : Expr} {m : Mark} (h : x.OccursIn e)
    (hx : x.mark? = some m) : m ∈ e.marks ∨ x.OccursIn e.core := by
  fun_induction core e with
  | case1 e ih =>
    rw [marks, List.mem_cons]
    rcases occursIn_optional.mp h with rfl | h
    · exact Or.inl (Or.inl (Option.some.inj hx).symm)
    · exact (ih h).imp_left Or.inr
  | case2 e ih =>
    rw [marks, List.mem_cons]
    rcases occursIn_nullable.mp h with rfl | h
    · exact Or.inl (Or.inl (Option.some.inj hx).symm)
    · exact (ih h).imp_left Or.inr
  | case3 e target ih =>
    rw [marks]
    rcases occursIn_cast.mp h with rfl | h
    · exact absurd hx (by simp [mark?])
    · exact ih h
  | case4 e => exact Or.inr h

end QueryValidator.Zod.Expr
