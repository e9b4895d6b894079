import QueryValidator.Proofs.Name.Reference

/-!
# Types of query arguments

A name with the mark of query arguments is that of the arguments of a query on the model before the
first mark. As the mark does not have its first character again, the first mark in the name of a
model's arguments is the one behind the model, whatever follows it (`ofName?_append`).
-/

namespace QueryValidator.ModelQuery

theorem isSome_ofName?_iff {name : Text} :
    (ofName? name).isSome = true ↔ findManyMark <:+: name := by
  rw [ofName?, Option.isSome_map]
  exact Text.occursIn_iff

/-- The model is the shortest text that the mark stands behind at the front of the name. -/
theorem first_of_ofName? {name : Text} {q : ModelQuery} (h : ofName? name = some q) :
    q.model ++ findManyMark <+: name ∧
      ∀ front, front ++ findManyMark <+: name → q.model.length ≤ front.length := by
  obtain ⟨⟨model, rest⟩, hcut, rfl⟩ := Option.map_eq_some_iff.mp h
  exact ⟨⟨rest, Text.cut?_sound hcut⟩, fun front hfront => Text.cut?_first hcut hfront⟩

theorem ofName?_append {model : Text} (h : Text.occursIn findManyMark model = false)
    (tail : Text) :
    ofName? (model ++ findManyMark ++ tail) = some ⟨model, "findMany"⟩ := by
  have hcut : Text.cut? findManyMark (model ++ (findManyMark ++ tail)) = some (model, tail) :=
    Text.cut?_append_of_not_occurs (c := 'F') (r := "indManyArgs".toList) (by decide) h tail
  rw [ofName?, List.append_assoc, hcut]
  rfl

/-- The module of the query has the name of the operation and the action that is usual for it. -/
theorem toOperation_findMany (model raw : Text) :
    Reference.toOperation ⟨model, "findMany"⟩ raw =
      ⟨operationIdent model Operation.findMany.label, raw,
        some ⟨operationIdent model Operation.findMany.label, .operation, "findMany" ++ model⟩⟩ :=
  rfl

end QueryValidator.ModelQuery
