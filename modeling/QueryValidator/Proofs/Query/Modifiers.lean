import QueryValidator.Proofs.Query.Alternatives
import QueryValidator.Proofs.Zod.Occurrence

/-!
# The modifiers of a field

The modifiers of a resolved field stand on the outer chain of its expression and nowhere else. The
alternatives are made optional before they are joined and lose the mark in a union; the name of the
field can take a nullable mark off again, through a cast. What is left is described by
`InputField.marked` alone, and with it by the field's flags, its name and whether it offers more
than one candidate.
-/

namespace QueryValidator

open Zod (Expr)
open Zod.Expr (Mark)

/-! ### Branches have no modifiers -/

namespace Candidate

variable {config : Config} {owner : Text} {c : Candidate} {b : Expr}

theorem isUnmarked_listed {e : Expr} (h : e.IsUnmarked) : (c.listed e).IsUnmarked := by
  unfold listed
  split
  · intro x hx
    rcases Expr.occursIn_list.mp hx with rfl | hx
    · rfl
    · exact h x hx
  · exact h

theorem isUnmarked_reference (ident : Text) : (Expr.deferred (.ref ident)).IsUnmarked := by
  intro x hx
  rcases Expr.occursIn_deferred.mp hx with rfl | hx
  · rfl
  · rw [Expr.occursIn_ref.mp hx]
    rfl

theorem Branch.isUnmarked (h : Branch config owner c b) : b.IsUnmarked := by
  cases h with
  | scalar _ =>
    refine isUnmarked_listed fun x hx => ?_
    rw [Expr.occursIn_scalar.mp hx]
    rfl
  | enumeration _ => exact isUnmarked_listed (isUnmarked_reference _)
  | object _ _ =>
    intro x hx
    rcases Expr.occursIn_cast.mp hx with rfl | hx
    · rfl
    · exact isUnmarked_listed (isUnmarked_reference _) x hx

end Candidate

/-! ### The chain of a field -/

namespace InputField

variable {config : Config} {owner : Text}

/-- The field matches a related record. -/
def IsRelation (f : InputField) : Prop :=
  f.name = "is".toList ∨ f.name = "isNot".toList

instance (f : InputField) : Decidable f.IsRelation :=
  inferInstanceAs (Decidable (_ ∨ _))

theorem isRelation_iff {f : InputField} : f.IsRelation ↔ isRelationField f.name = true :=
  isRelationField_iff.symm

/-- The marks of the field around an expression without marks, from the outside. -/
def chain (f : InputField) (several : Bool) : List Mark :=
  let isNullable := f.isNullable && !isRelationField f.name
  let isOptional := !f.isRequired && !(several && isNullable)
  (if isNullable then [.nullable] else []) ++ (if isOptional then [.optional] else [])

theorem marks_marked (f : InputField) (several : Bool) (e : Expr) :
    (f.marked several e).marks = f.chain several ++ e.marks := by
  unfold marked chain
  cases f.isNullable && !isRelationField f.name <;> cases f.isRequired <;> cases several <;> rfl

theorem core_marked (f : InputField) (several : Bool) (e : Expr) :
    (f.marked several e).core = e.core := by
  unfold marked
  cases f.isNullable && !isRelationField f.name <;> cases f.isRequired <;> cases several <;> rfl

/-- The cast of a union is on its chain, but is no mark. -/
theorem marks_typed (f : InputField) (e : Expr) : (f.typed e).marks = e.marks := by
  unfold typed
  split <;> rfl

theorem core_typed (f : InputField) (e : Expr) : (f.typed e).core = e.core := by
  unfold typed
  split <;> rfl

theorem isUnmarked_union {cs : List Candidate} {bs : List Expr}
    (h : List.Forall₂ (Candidate.Branch config owner) cs bs) : (Expr.union bs).IsUnmarked := by
  intro x hx
  rcases Expr.occursIn_union.mp hx with rfl | ⟨b, hb, hx⟩
  · rfl
  · obtain ⟨i, hi, rfl⟩ := List.mem_iff_getElem.mp hb
    have hbranch := h.get (h.length_eq ▸ hi) hi
    exact hbranch.isUnmarked x hx

/-- The expression of a field has the field's marks on its chain and none below. -/
theorem assembled_normal {f : InputField} {cs : List Candidate} {bs : List Expr}
    (h : List.Forall₂ (Candidate.Branch config owner) cs bs) (hne : bs ≠ []) :
    (f.assembled bs).marks = f.chain (cs.length != 1) ∧ (f.assembled bs).core.IsUnmarked := by
  cases h with
  | nil => exact absurd rfl hne
  | @cons c b cs bs hb hrest =>
    cases hrest with
    | nil =>
      have hunmarked := hb.isUnmarked
      refine ⟨?_, ?_⟩
      · show (f.marked false b).marks = f.chain false
        rw [marks_marked, hunmarked.marks_eq_nil, List.append_nil]
      · show (f.marked false b).core.IsUnmarked
        rw [core_marked]
        exact hunmarked.core
    | @cons c' b' cs bs hb' hrest =>
      have hunmarked := isUnmarked_union (.cons hb (.cons hb' hrest))
      refine ⟨?_, ?_⟩
      · show (f.typed (f.marked true (.union (b :: b' :: bs)))).marks = f.chain true
        rw [marks_typed, marks_marked, hunmarked.marks_eq_nil, List.append_nil]
      · show (f.typed (f.marked true (.union (b :: b' :: bs)))).core.IsUnmarked
        rw [core_typed, core_marked]
        exact hunmarked.core

theorem nullable_mem_chain_iff {f : InputField} {several : Bool} :
    Mark.nullable ∈ f.chain several ↔ f.isNullable = true ∧ ¬ f.IsRelation := by
  rw [isRelation_iff, chain]
  cases f.isNullable <;> cases isRelationField f.name <;> cases f.isRequired <;> cases several <;>
    decide

theorem optional_mem_chain_iff {f : InputField} {several : Bool} :
    Mark.optional ∈ f.chain several ↔
      f.isRequired = false ∧ (several = false ∨ f.IsRelation ∨ f.isNullable = false) := by
  rw [isRelation_iff, chain]
  cases f.isNullable <;> cases isRelationField f.name <;> cases f.isRequired <;> cases several <;>
    decide

theorem chain_sublist (f : InputField) (several : Bool) :
    (f.chain several).Sublist [.nullable, .optional] := by
  unfold chain
  cases f.isNullable && !isRelationField f.name <;> cases f.isRequired <;> cases several <;>
    decide

end InputField

/-- **The modifiers of a field**: on the outer chain of a resolved field's expression there is a
nullable mark exactly if the field is nullable and does not match a related record, and an optional
mark exactly if it is not required, unless the expression is a union that is nullable already. Each
mark stands there at most once, the nullable mark outside the optional one. Below the chain no mark
occurs; a field that matches a related record is not nullable anywhere. -/
theorem resolve_modifiers {config : Config} {owner name : Text} {s : Scope} {f : InputField}
    {e : Expr} (h : (s.resolve config owner f).2 = .ok (some (name, e))) :
    (Mark.nullable ∈ e.marks ↔ f.isNullable = true ∧ ¬ f.IsRelation) ∧
    (Mark.optional ∈ e.marks ↔ f.isRequired = false ∧
      (f.offered.length = 1 ∨ f.IsRelation ∨ f.isNullable = false)) ∧
    e.marks.Sublist [.nullable, .optional] ∧
    (∀ x : Expr, x.OccursIn e.core → x.mark? = none) ∧
    (f.IsRelation → ∀ x : Expr, ¬ (Expr.nullable x).OccursIn e) := by
  obtain ⟨-, -, hvalidator⟩ := Scope.resolve_eq_some h
  obtain ⟨bs, hbs, hne, rfl⟩ := InputField.exists_branches_of_validator hvalidator
  obtain ⟨hmarks, hcore⟩ := InputField.assembled_normal (f := f) hbs hne
  have hnullable : Mark.nullable ∈ (f.assembled bs).marks ↔
      f.isNullable = true ∧ ¬ f.IsRelation := by
    rw [hmarks, InputField.nullable_mem_chain_iff]
  refine ⟨hnullable, ?_, ?_, hcore, ?_⟩
  · rw [hmarks, InputField.optional_mem_chain_iff, bne_eq_false_iff_eq]
  · rw [hmarks]
    exact f.chain_sublist _
  · intro hrelation x hx
    rcases hx.on_chain_or_in_core rfl with hchain | hbelow
    · exact (hnullable.mp hchain).2 hrelation
    · exact absurd (hcore _ hbelow) (by simp [Expr.mark?])

/-- The union of a field that may be left out or be null is nullable only; the branches have lost
their optional marks. -/
theorem rank_nullable_only :
    ∃ e, (Scope.empty.resolve .initial "PostWhereInput" ⟨"rank", false, true,
        [⟨.scalar .int, false⟩, ⟨.enumeration "Rank" .generated, false⟩]⟩).2 =
        .ok (some ("rank".toList, e)) ∧
      Mark.nullable ∈ e.marks ∧ Mark.optional ∉ e.marks ∧
      ∀ x : Expr, x.OccursIn e.core → x.mark? = none := by
  have hresolve : (Scope.empty.resolve .initial "PostWhereInput" ⟨"rank", false, true,
      [⟨.scalar .int, false⟩, ⟨.enumeration "Rank" .generated, false⟩]⟩).2 =
      .ok (some ("rank".toList,
        .nullable (.union [.scalar .number, .deferred (.ref "RankSchema")]))) := rfl
  obtain ⟨hnullable, hoptional, -, hcore, -⟩ := resolve_modifiers hresolve
  refine ⟨_, hresolve, hnullable.mpr ⟨rfl, by decide⟩, ?_, hcore⟩
  intro h
  exact absurd (hoptional.mp h) (by decide)

end QueryValidator
