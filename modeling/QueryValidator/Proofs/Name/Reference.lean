import QueryValidator.Proofs.Text.Search
import QueryValidator.Name.Reference

/-!
# The three kinds of reference

A reference leads to an operation if the candidate's name has the mark of query arguments, and else
to an enumeration or an object of the name that `whereInputOf` gives.
-/

namespace QueryValidator

theorem ModelQuery.ofName?_eq_none_iff {raw : Text} :
    ModelQuery.ofName? raw = none ↔ Text.occursIn findManyMark raw = false := by
  rw [ModelQuery.ofName?, Option.map_eq_none_iff, Text.cut?_eq_none_iff]

/-- A name that is no relation filter stands for itself. -/
theorem whereInputOf_of_not_suffix {name : Text} (h : ¬ "RelationFilter".toList <:+ name) :
    whereInputOf name = name := by
  have hlist : ¬ "ListRelationFilter".toList <:+ name := by
    rintro ⟨before, hb⟩
    exact h ⟨before ++ "List".toList, by rw [List.append_assoc]; exact hb⟩
  rw [whereInputOf, Text.dropEnding?_eq_none_iff.mpr hlist, Text.dropEnding?_eq_none_iff.mpr h]

theorem whereInputOf_ne_nil {name : Text} (h : name ≠ []) : whereInputOf name ≠ [] := by
  unfold whereInputOf
  split
  · simp
  · split
    · simp
    · exact h

theorem enumIdent_inj {name other : Text} : enumIdent name = enumIdent other ↔ name = other :=
  List.append_left_inj _

theorem objectIdent_inj {name other : Text} :
    objectIdent name = objectIdent other ↔ name = other :=
  List.append_left_inj _

/-- The schema of an object has the same name as that of an enumeration with a longer name. -/
theorem objectIdent_eq_enumIdent (name : Text) :
    objectIdent name = enumIdent (name ++ "Object") := by
  rw [enumIdent, List.append_assoc]
  rfl

namespace Reference

/-- The reference of the module of `owner` to the object `name`. -/
def toObject (name owner : Text) : Reference :=
  ⟨objectIdent name, name, if name = owner then none else some ⟨objectIdent name, .object, name⟩⟩

/-- The reference of the module of `owner` to the enumeration `name`. -/
def toEnum (name owner : Text) : Reference :=
  ⟨enumIdent name, name, if name = owner then none else some ⟨enumIdent name, .enumeration, name⟩⟩

/-- The reference to the operation whose arguments are the type `raw`. -/
def toOperation (q : ModelQuery) (raw : Text) : Reference :=
  ⟨q.ident, raw, some ⟨q.ident, .operation, q.stem⟩⟩

variable {raw owner : Text} {isEnum : Bool}

theorem ofName_of_query {q : ModelQuery} (h : ModelQuery.ofName? raw = some q) :
    ofName raw isEnum owner = toOperation q raw := by
  rw [ofName, h]
  rfl

theorem ofName_object (h : Text.occursIn ModelQuery.findManyMark raw = false) :
    ofName raw false owner = toObject (whereInputOf raw) owner := by
  rw [ofName, ModelQuery.ofName?_eq_none_iff.mpr h]
  rfl

theorem ofName_enum (h : Text.occursIn ModelQuery.findManyMark raw = false) :
    ofName raw true owner = toEnum (whereInputOf raw) owner := by
  rw [ofName, ModelQuery.ofName?_eq_none_iff.mpr h]
  rfl

/-- A reference is of one of the three kinds. -/
theorem ofName_cases (raw : Text) (isEnum : Bool) (owner : Text) :
    (∃ q, ModelQuery.ofName? raw = some q ∧ ofName raw isEnum owner = toOperation q raw) ∨
      ofName raw isEnum owner = toEnum (whereInputOf raw) owner ∨
      ofName raw isEnum owner = toObject (whereInputOf raw) owner := by
  cases hq : ModelQuery.ofName? raw with
  | some q => exact Or.inl ⟨q, rfl, ofName_of_query hq⟩
  | none =>
    have hmark := ModelQuery.ofName?_eq_none_iff.mp hq
    cases isEnum with
    | true => exact Or.inr (Or.inl (ofName_enum hmark))
    | false => exact Or.inr (Or.inr (ofName_object hmark))

theorem typeName_ofName_ne_nil (h : raw ≠ []) : (ofName raw isEnum owner).typeName ≠ [] := by
  rcases ofName_cases raw isEnum owner with ⟨q, -, heq⟩ | heq | heq
  · rw [heq]
    exact h
  · rw [heq]
    exact whereInputOf_ne_nil h
  · rw [heq]
    exact whereInputOf_ne_nil h

theorem imported_toObject {name : Text} {i : Import} (h : (toObject name owner).imported = some i) :
    name ≠ owner ∧ i = ⟨objectIdent name, .object, name⟩ := by
  by_cases hn : name = owner
  · simp [toObject, hn] at h
  · simp only [toObject, if_neg hn, Option.some.injEq] at h
    exact ⟨hn, h.symm⟩

theorem imported_toEnum {name : Text} {i : Import} (h : (toEnum name owner).imported = some i) :
    name ≠ owner ∧ i = ⟨enumIdent name, .enumeration, name⟩ := by
  by_cases hn : name = owner
  · simp [toEnum, hn] at h
  · simp only [toEnum, if_neg hn, Option.some.injEq] at h
    exact ⟨hn, h.symm⟩

end Reference

end QueryValidator
