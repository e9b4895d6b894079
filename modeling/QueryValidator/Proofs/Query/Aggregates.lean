import QueryValidator.Proofs.Module.Declarations
import QueryValidator.Proofs.Name.Reference
import QueryValidator.Proofs.Zod.Expr
import QueryValidator.Query.Arguments

/-!
# Aggregates of a model and their clauses

The name of an aggregate's input type is taken apart from its end, first `AggregateInput` and then
the label of the aggregate. As no label ends in another, it is read in one way only, be the model
itself called `PostCount`. A model so supports the aggregates whose input types are declared, in the
order of their clauses (`supported_eq`), and each of its clauses refers to that input type.
-/

namespace QueryValidator

/-! ### Names of input types -/

namespace Aggregate

theorem mem_all (a : Aggregate) : a ∈ all := by
  cases a <;> decide

/-- No label ends in another. -/
theorem eq_of_label_suffix (a b : Aggregate) (h : a.label <:+ b.label) : a = b := by
  revert h
  cases a <;> cases b <;> decide

/-- The search for the label finds the only one that fits. -/
theorem findSome?_label_eq_some_iff {head model : Text} {a : Aggregate} :
    all.findSome? (fun b => (Text.dropEnding? b.label head).map (·, b)) = some (model, a) ↔
      head = model ++ a.label := by
  have hsound : ∀ {found : Text × Aggregate},
      all.findSome? (fun b => (Text.dropEnding? b.label head).map (·, b)) = some found →
        head = found.1 ++ found.2.label := by
    intro found hfound
    obtain ⟨b, -, hb⟩ := List.exists_of_findSome?_eq_some hfound
    obtain ⟨before, hbefore, rfl⟩ := Option.map_eq_some_iff.mp hb
    exact (Text.dropEnding?_eq_some_iff.mp hbefore).symm
  constructor
  · exact hsound
  · rintro rfl
    cases hfound : all.findSome? fun b =>
        (Text.dropEnding? b.label (model ++ a.label)).map (·, b) with
    | none =>
      have hnone := List.findSome?_eq_none_iff.mp hfound a a.mem_all
      rw [Text.dropEnding?_append] at hnone
      cases hnone
    | some found =>
      -- what was found fits too, so it is the same
      obtain ⟨hmodel, ha⟩ := (Text.append_ending_inj eq_of_label_suffix).mp (hsound hfound)
      rw [hmodel, ha]

/-- An input type belongs to a model and an aggregate exactly if it has their name. -/
theorem ofInputName?_eq_some_iff {name model : Text} {a : Aggregate} :
    ofInputName? name = some (model, a) ↔ model ≠ [] ∧ name = model ++ a.inputEnding := by
  rw [inputEnding, ← List.append_assoc]
  unfold ofInputName?
  simp only [Option.bind_eq_bind, Option.bind_eq_some_iff, Prod.exists,
    findSome?_label_eq_some_iff, Text.dropEnding?_eq_some_iff]
  constructor
  · rintro ⟨_, rfl, model', a', rfl, hsome⟩
    split at hsome
    · cases hsome
    · next hne =>
      cases hsome
      exact ⟨fun hnil => hne (List.isEmpty_iff.mpr hnil), rfl⟩
  · rintro ⟨hne, rfl⟩
    exact ⟨_, rfl, model, a, rfl, if_neg fun hnil => hne (List.isEmpty_iff.mp hnil)⟩

/-- **Aggregates of a model**: those whose input types are declared, whatever else is declared. -/
theorem supported_eq {names : List Text} {model : Text} (h : model ≠ []) :
    supported names model = all.filter fun a => names.contains (model ++ a.inputEnding) := by
  refine List.filter_congr fun a _ => ?_
  rw [Bool.eq_iff_iff, List.contains_iff_mem, List.contains_iff_mem, List.mem_filterMap]
  constructor
  · rintro ⟨name, hname, hread⟩
    rw [← (ofInputName?_eq_some_iff.mp hread).2]
    exact hname
  · intro hname
    exact ⟨_, hname, ofInputName?_eq_some_iff.mpr ⟨h, rfl⟩⟩

end Aggregate

/-! ### Imports of arguments -/

namespace ArgumentForm

/-- What an argument imports is an object of the model or the enumeration of its fields. -/
theorem mem_imports {a : ArgumentForm} {model : Text} {i : Import} (h : i ∈ a.imports model) :
    (∃ ending : Text, i = ⟨objectIdent (model ++ ending), .object, model ++ ending⟩) ∨
      i = ⟨enumIdent (model ++ fieldNamesEnding), .enumeration, model ++ fieldNamesEnding⟩ := by
  fun_induction imports model a with
  | case1 ending => exact Or.inl ⟨ending, List.mem_singleton.mp h⟩
  | case2 => exact Or.inr (List.mem_singleton.mp h)
  | case3 s => exact absurd h List.not_mem_nil
  | case4 a ih => exact ih h
  | case5 a ih => exact ih h
  | case6 a ih => exact ih h
  | case7 a b iha ihb =>
    rcases List.mem_append.mp h with h | h
    · exact iha h
    · exact ihb h

/-- The identifier tells the import: the enumeration of a model's fields is not named like the
schema of an object. -/
theorem import_eq_of_ident_eq {a b : ArgumentForm} {model : Text} {i j : Import}
    (hi : i ∈ a.imports model) (hj : j ∈ b.imports model) (h : i.ident = j.ident) : i = j := by
  have hkinds : ∀ ending : Text,
      objectIdent (model ++ ending) ≠ enumIdent (model ++ fieldNamesEnding) := by
    intro ending
    rw [objectIdent_eq_enumIdent, ne_eq, enumIdent_inj, List.append_assoc, List.append_right_inj]
    exact Text.append_ne_append (by decide) (by decide) ending []
  rcases mem_imports hi with ⟨ending, rfl⟩ | rfl
  · rcases mem_imports hj with ⟨ending', rfl⟩ | rfl
    · rw [objectIdent_inj.mp h]
    · exact absurd h (hkinds ending)
  · rcases mem_imports hj with ⟨ending', rfl⟩ | rfl
    · exact absurd h.symm (hkinds ending')
    · rfl

end ArgumentForm

/-- No import of an operation is lost. -/
theorem Operation.mem_imports_of_mem {arguments : ArgumentList} {model : Text}
    {argument : Text × ArgumentForm} (hmem : argument ∈ arguments) {i : Import}
    (hi : i ∈ argument.2.imports model) :
    i ∈ (ImportList.empty.insertAll (arguments.flatMap fun (_, a) => a.imports model)).entries := by
  have hoffered : i ∈ arguments.flatMap fun (_, a) => a.imports model :=
    List.mem_flatMap.mpr ⟨argument, hmem, hi⟩
  have hcontains := ImportList.contains_insertAll_empty.mpr ⟨i, hoffered, rfl⟩
  obtain ⟨j, hj, hident⟩ := ImportList.contains_iff.mp hcontains
  obtain ⟨other, -, hother⟩ := List.mem_flatMap.mp (ImportList.mem_of_mem_insertAll_empty hj)
  rw [← ArgumentForm.import_eq_of_ident_eq hother hi hident]
  exact hj

/-! ### Clauses -/

namespace Operation

/-- The keys of the arguments that every aggregate has. -/
def aggregateKeys : List Text := ["orderBy", "where", "cursor", "take", "skip"]

theorem keys_aggregate (config : Config) (model : Model) (aggregates : List Aggregate) :
    (arguments .aggregate config model aggregates).map Prod.fst =
      aggregateKeys ++ aggregates.map Aggregate.clause := by
  rw [arguments, List.map_append, List.map_map]
  rfl

theorem aggregateClause_uses (a : Aggregate) {model ident : Text} :
    ((aggregateClause a).2.expr model).Uses ident ↔
      ident = objectIdent (model ++ a.inputEnding) := by
  by_cases hcount : a = .count
  · subst hcount
    simp [aggregateClause, argument, ArgumentForm.expr]
  · simp [aggregateClause, argument, ArgumentForm.expr, hcount, Zod.Expr.markOptional]

theorem mem_aggregateClause_imports (a : Aggregate) (model : Text) :
    ⟨objectIdent (model ++ a.inputEnding), .object, model ++ a.inputEnding⟩ ∈
      (aggregateClause a).2.imports model := by
  by_cases hcount : a = .count
  · subst hcount
    exact List.mem_singleton_self _
  · simp [aggregateClause, argument, ArgumentForm.imports, hcount]

end Operation

end QueryValidator
