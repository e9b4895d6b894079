import QueryValidator.Zod.Print

/-!
# Expressions

The laws of the modifiers, the fields of objects, and the texts of lists of expressions. A modifier
is marked once and taken off again, `stripNullable` along the whole outer chain, and whether the
values are lists is the same before and after.
-/

namespace QueryValidator.Zod.Expr

/-! ### Modifiers -/

@[simp] theorem markOptional_optional (e : Expr) : (optional e).markOptional = .optional e := rfl

@[simp] theorem markNullable_optional (e : Expr) :
    (optional e).markNullable = .nullable (.optional e) := rfl

@[simp] theorem markOptional_union (es : List Expr) :
    (union es).markOptional = .optional (.union es) := rfl

@[simp] theorem markNullable_union (es : List Expr) :
    (union es).markNullable = .nullable (.union es) := rfl

@[simp] theorem markOptional_markOptional (e : Expr) :
    e.markOptional.markOptional = e.markOptional := by
  cases e <;> rfl

@[simp] theorem markNullable_markNullable (e : Expr) :
    e.markNullable.markNullable = e.markNullable := by
  cases e <;> rfl

@[simp] theorem stripOptional_markOptional (e : Expr) :
    e.markOptional.stripOptional = e.stripOptional := by
  cases e <;> rfl

@[simp] theorem stripNullable_markNullable (e : Expr) :
    e.markNullable.stripNullable = e.stripNullable := by
  cases e <;> rfl

/-- Off the chain of modifiers and casts nothing is looked at or taken off. -/
theorem isNullable_stripNullable (e : Expr) : e.stripNullable.isNullable = false := by
  fun_induction stripNullable e with
  | case1 e ih => exact ih
  | case2 e ih => exact ih
  | case3 e target ih => exact ih
  | case4 e hnullable hoptional hcast =>
    cases e with
    | nullable e => exact absurd rfl (hnullable e)
    | optional e => exact absurd rfl (hoptional e)
    | cast e target => exact absurd rfl (hcast e target)
    | _ => rfl

theorem stripNullable_of_isNullable_eq_false {e : Expr} (h : e.isNullable = false) :
    e.stripNullable = e := by
  fun_induction stripNullable e with
  | case1 e ih => cases h
  | case2 e ih => rw [ih h]
  | case3 e target ih => rw [ih h]
  | case4 e => rfl

theorem stripNullable_eq_self_iff {e : Expr} : e.stripNullable = e ↔ e.isNullable = false := by
  constructor
  · intro h
    rw [← h]
    exact isNullable_stripNullable e
  · exact stripNullable_of_isNullable_eq_false

@[simp] theorem isList_markOptional (e : Expr) : e.markOptional.isList = e.isList := by
  cases e <;> rfl

@[simp] theorem isList_markNullable (e : Expr) : e.markNullable.isList = e.isList := by
  cases e <;> rfl

@[simp] theorem isList_stripOptional (e : Expr) : e.stripOptional.isList = e.isList := by
  cases e <;> rfl

@[simp] theorem isList_stripNullable (e : Expr) : e.stripNullable.isList = e.isList := by
  fun_induction stripNullable e with
  | case1 e ih => exact ih
  | case2 e ih => exact ih
  | case3 e target ih => exact ih
  | case4 e => rfl

/-! ### Objects -/

/-- The fields of an object; no other expression has any. -/
def fields : Expr → List (Text × Expr)
  | .object fs => fs
  | _ => []

/-! ### Texts -/

theorem texts_eq_map (es : List Expr) : texts es = es.map text := by
  induction es with
  | nil => rfl
  | cons e es ih => rw [texts, ih, List.map_cons]

theorem fieldTexts_eq_map (fs : List (Text × Expr)) : fieldTexts fs = fs.map fieldText := by
  induction fs with
  | nil => rfl
  | cons f fs ih => rw [fieldTexts, ih, List.map_cons]

theorem fieldText_eq (f : Text × Expr) : fieldText f = f.1 ++ (": " ++ text f.2) := by
  rw [← List.append_assoc]
  cases f
  rfl

end QueryValidator.Zod.Expr
