import QueryValidator.Proofs.Query.Alternatives

/-!
# Modifiers and the rule for filters

The laws of the modifiers, for expressions of any form. An expression that is adjusted, with marks
and casts put on and marks taken off in any order, is a list if it was one before, so that the rule
for filters keeps the same alternatives.
-/

namespace QueryValidator

namespace Zod

/-- An operation on the modifiers and casts of an expression. -/
inductive Adjustment where
  | markOptional
  | markNullable
  | cast (target : Text)
  | stripOptional
  | stripNullable
deriving DecidableEq, Repr

def Adjustment.apply : Adjustment → Expr → Expr
  | .markOptional, e => e.markOptional
  | .markNullable, e => e.markNullable
  | .cast target, e => .cast e target
  | .stripOptional, e => e.stripOptional
  | .stripNullable, e => e.stripNullable

theorem Adjustment.isList_apply (a : Adjustment) (e : Expr) : (a.apply e).isList = e.isList := by
  cases a with
  | markOptional => exact Expr.isList_markOptional e
  | markNullable => exact Expr.isList_markNullable e
  | cast target => rfl
  | stripOptional => exact Expr.isList_stripOptional e
  | stripNullable => exact Expr.isList_stripNullable e

namespace Expr

/-- The expression after some operations, one after the other. -/
def adjusted (e : Expr) (as : List Adjustment) : Expr :=
  as.foldl (fun e a => a.apply e) e

theorem isList_adjusted (e : Expr) (as : List Adjustment) : (e.adjusted as).isList = e.isList := by
  induction as generalizing e with
  | nil => rfl
  | cons a as ih => exact (ih (a.apply e)).trans (a.isList_apply e)

end Expr

end Zod

open Zod (Expr)

namespace InputField

/-- Alternatives may be adjusted before the rule for filters or behind it. -/
theorem kept_adjusted {ι : Type} (name : Text) (e : ι → Expr)
    (as : ι → List Zod.Adjustment) (xs : List ι) :
    ∃ ys : List ι, ys.Sublist xs ∧ kept name (xs.map e) = ys.map e ∧
      kept name (xs.map fun x => (e x).adjusted (as x)) =
        ys.map fun x => (e x).adjusted (as x) := by
  have hlists : (fun x => ((e x).adjusted (as x)).isList) = fun x => (e x).isList :=
    funext fun x => (e x).isList_adjusted (as x)
  refine ⟨chosen name (fun x => (e x).isList) xs, chosen_sublist _ _ _, kept_map_eq name e xs, ?_⟩
  rw [kept_map_eq, hlists]

end InputField

open InputField (kept)

/-- **Laws of the modifiers**: `stripNullable` leaves an expression that is not nullable, and is the
identity on those that are not; it and `stripOptional` undo a mark, and a mark is put on once. No
modifier, no cast and no strip changes whether the values are lists. So alternatives that are
adjusted, each in its own way, are kept by the rule for filters where they were kept before. -/
theorem Zod.Expr.modifier_laws :
    (∀ e : Expr, e.stripNullable.isNullable = false ∧
      (e.stripNullable = e ↔ e.isNullable = false) ∧
      e.stripNullable.stripNullable = e.stripNullable ∧
      e.markNullable.stripNullable = e.stripNullable ∧
      e.markOptional.stripOptional = e.stripOptional ∧
      e.markOptional.markOptional = e.markOptional ∧
      e.markNullable.markNullable = e.markNullable) ∧
    (∀ e : Expr, e.markOptional.isList = e.isList ∧ e.markNullable.isList = e.isList ∧
      (∀ target, (cast e target).isList = e.isList) ∧ e.stripOptional.isList = e.isList ∧
      e.stripNullable.isList = e.isList) ∧
    ∀ (name : Text) (ι : Type) (e : ι → Expr) (as : ι → List Adjustment) (xs : List ι),
      ∃ ys : List ι, ys.Sublist xs ∧ kept name (xs.map e) = ys.map e ∧
        kept name (xs.map fun x => (e x).adjusted (as x)) =
          ys.map fun x => (e x).adjusted (as x) := by
  refine ⟨fun e => ?_, fun e => ?_, fun name ι e as xs => InputField.kept_adjusted name e as xs⟩
  · have hstripped := e.isNullable_stripNullable
    exact ⟨hstripped, stripNullable_eq_self_iff, stripNullable_of_isNullable_eq_false hstripped,
      e.stripNullable_markNullable, e.stripOptional_markOptional, e.markOptional_markOptional,
      e.markNullable_markNullable⟩
  · exact ⟨e.isList_markOptional, e.isList_markNullable, fun _ => rfl, e.isList_stripOptional,
      e.isList_stripNullable⟩

/-- Nullable marks on both sides of a cast are taken off, and the optional mark between them
stays. -/
example : (Expr.nullable (.cast (.optional (.nullable (.list (.ref "A")))) "A[]")).stripNullable =
    .cast (.optional (.list (.ref "A"))) "A[]" := rfl

end QueryValidator
