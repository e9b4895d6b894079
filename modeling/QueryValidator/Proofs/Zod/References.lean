import QueryValidator.Proofs.Zod.Occurrence

/-!
# References of an expression

`references` lists the identifiers that an expression refers to, from the left to the right and as
often as it refers to them: these are the references that occur in it (`mem_references`).
-/

namespace QueryValidator.Zod.Expr

mutual

/-- The identifiers of the references, in the order of the text. -/
def references : Expr → List Text
  | .scalar _ => []
  | .ref ident => [ident]
  | .deferred e => references e
  | .list e => references e
  | .optional e => references e
  | .nullable e => references e
  | .cast e _ => references e
  | .union es => listReferences es
  | .object fs => fieldsReferences fs
  | .strict e => references e
  | .enumeration _ => []

def listReferences : List Expr → List Text
  | [] => []
  | e :: es => references e ++ listReferences es

def fieldsReferences : List (Text × Expr) → List Text
  | [] => []
  | f :: fs => fieldReferences f ++ fieldsReferences fs

def fieldReferences : Text × Expr → List Text
  | (_, e) => references e

end

theorem listReferences_eq (es : List Expr) : listReferences es = es.flatMap references := by
  induction es with
  | nil => rfl
  | cons e es ih => rw [listReferences, ih, List.flatMap_cons]

theorem fieldsReferences_eq (fs : List (Text × Expr)) :
    fieldsReferences fs = fs.flatMap fun f => f.2.references := by
  induction fs with
  | nil => rfl
  | cons f fs ih =>
    rw [fieldsReferences, ih, List.flatMap_cons]
    cases f
    rfl

@[simp] theorem references_union (es : List Expr) :
    (union es).references = es.flatMap references :=
  listReferences_eq es

@[simp] theorem references_object (fs : List (Text × Expr)) :
    (object fs).references = fs.flatMap fun f => f.2.references :=
  fieldsReferences_eq fs

@[simp] theorem references_markOptional (e : Expr) :
    e.markOptional.references = e.references := by
  cases e <;> rfl

/-- An expression that is no reference itself has those of its parts. -/
theorem references_eq_flatMap {e : Expr} (h : ∀ ident, e ≠ .ref ident) :
    e.references = e.parts.flatMap references := by
  cases e with
  | scalar s => rfl
  | ref ident => exact absurd rfl (h ident)
  | union es => exact references_union es
  | object fs => rw [references_object, parts, List.flatMap_map]
  | enumeration values => rfl
  | deferred e => exact (List.flatMap_singleton references e).symm
  | list e => exact (List.flatMap_singleton references e).symm
  | optional e => exact (List.flatMap_singleton references e).symm
  | nullable e => exact (List.flatMap_singleton references e).symm
  | cast e target => exact (List.flatMap_singleton references e).symm
  | strict e => exact (List.flatMap_singleton references e).symm

theorem sizeOf_lt_of_mem_parts {e p : Expr} (h : p ∈ e.parts) : sizeOf p < sizeOf e := by
  have hsingle : ∀ {q r : Expr}, q ∈ [r] → sizeOf q < 1 + sizeOf r := by
    intro q r hq
    rw [List.mem_singleton.mp hq]
    omega
  cases e with
  | scalar s => exact absurd h List.not_mem_nil
  | ref ident => exact absurd h List.not_mem_nil
  | enumeration values => exact absurd h List.not_mem_nil
  | union es =>
    have hlt : sizeOf p < sizeOf es := List.sizeOf_lt_of_mem h
    rw [union.sizeOf_spec]
    omega
  | object fs =>
    obtain ⟨f, hf, rfl⟩ := List.mem_map.mp h
    have hfield : sizeOf f.2 < sizeOf f := by
      rw [Prod.mk.sizeOf_spec]
      omega
    have hlt := List.sizeOf_lt_of_mem hf
    rw [object.sizeOf_spec]
    omega
  | cast e target =>
    rw [cast.sizeOf_spec]
    exact Nat.lt_add_right _ (hsingle h)
  | deferred e => exact hsingle h
  | list e => exact hsingle h
  | optional e => exact hsingle h
  | nullable e => exact hsingle h
  | strict e => exact hsingle h

/-- The references listed are those that occur in the expression, at any depth. -/
theorem mem_references {e : Expr} {ident : Text} :
    ident ∈ e.references ↔ (ref ident).OccursIn e := by
  by_cases href : ∃ target, e = .ref target
  · obtain ⟨target, rfl⟩ := href
    simp [references]
  · have hnone : ∀ target, e ≠ .ref target := not_exists.mp href
    rw [references_eq_flatMap hnone, List.mem_flatMap, occursIn_iff,
      or_iff_right fun h => hnone ident h.symm]
    refine exists_congr fun p => and_congr_right fun hp => ?_
    have := sizeOf_lt_of_mem_parts hp
    exact mem_references
termination_by sizeOf e

end QueryValidator.Zod.Expr
