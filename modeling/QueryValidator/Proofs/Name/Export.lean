import QueryValidator.Name.Operation
import QueryValidator.Proofs.Name.Reference

/-!
# Exported names

The schemas of enumerations, objects and operations have their names from one space. The endings of
objects and operations keep these two apart; but an enumeration may have any name before its ending,
and of a model only the capitalised name counts.
-/

namespace QueryValidator

namespace Operation

theorem capitalized_label (op : Operation) : Text.capitalized op.label = op.label := by
  cases op <;> rfl

/-- No label ends in another. -/
theorem eq_of_label_suffix (op op' : Operation) (h : op.label <:+ op'.label) : op = op' := by
  revert h
  cases op <;> cases op' <;> decide

theorem label_object_not_suffix (op : Operation) :
    ¬ op.label <:+ "Object".toList ∧ ¬ "Object".toList <:+ op.label := by
  cases op <;> decide

end Operation

/-- The schema of an operation has the same name as that of an enumeration. -/
theorem operationIdent_eq_enumIdent (model : Text) (op : Operation) :
    operationIdent model op.label = enumIdent (Text.capitalized model ++ op.label) := by
  rw [operationIdent, op.capitalized_label, enumIdent]

theorem operationIdent_inj {model other : Text} {op op' : Operation} :
    operationIdent model op.label = operationIdent other op'.label ↔
      Text.capitalized model = Text.capitalized other ∧ op = op' := by
  rw [operationIdent_eq_enumIdent, operationIdent_eq_enumIdent, enumIdent_inj]
  exact Text.append_ending_inj Operation.eq_of_label_suffix

theorem enumIdent_eq_operationIdent_iff {name model : Text} {op : Operation} :
    enumIdent name = operationIdent model op.label ↔
      name = Text.capitalized model ++ op.label := by
  rw [operationIdent_eq_enumIdent, enumIdent_inj]

theorem enumIdent_eq_objectIdent_iff {name other : Text} :
    enumIdent name = objectIdent other ↔ name = other ++ "Object" := by
  rw [objectIdent_eq_enumIdent, enumIdent_inj]

theorem objectIdent_ne_operationIdent (name model : Text) (op : Operation) :
    objectIdent name ≠ operationIdent model op.label := by
  rw [objectIdent_eq_enumIdent, operationIdent_eq_enumIdent, ne_eq, enumIdent_inj]
  obtain ⟨hlabel, hobject⟩ := op.label_object_not_suffix
  exact Text.append_ne_append hobject hlabel _ _

end QueryValidator
