import QueryValidator.Name.Operation
import QueryValidator.Proofs.Text.Search
import QueryValidator.Proofs.Text.Table

/-!
# Aliases of raw operations

The input type of a raw operation has an alias, the name of the operation's arguments without the
ending `Args`. An input type has at most one alias, and no two input types have the same.
-/

namespace QueryValidator

/-- Some mapping has a raw operation whose input type is called `name`; its alias is `stem`. -/
inductive RawAlias (mappings : List Mapping) : (name stem : Text) → Prop
  | find {m : Mapping} : m ∈ mappings → m.findRaw ≠ none →
      RawAlias mappings ("find" ++ m.model ++ "Raw") (m.model ++ "FindRaw")
  | aggregate {m : Mapping} : m ∈ mappings → m.aggregateRaw ≠ none →
      RawAlias mappings ("aggregate" ++ m.model ++ "Raw") (m.model ++ "AggregateRaw")

namespace RawAlias

variable {mappings : List Mapping} {name stem : Text}

theorem mem_rawOperations_iff {args : Text} :
    (name, args) ∈ mappings.flatMap Mapping.rawOperations ↔
      ∃ stem, RawAlias mappings name stem ∧ args = stem ++ "Args" := by
  have hfind : ∀ m : Mapping, m.model ++ "FindRawArgs".toList = m.model ++ "FindRaw" ++ "Args" := by
    intro m
    rw [List.append_assoc]
    rfl
  have haggregate : ∀ m : Mapping,
      m.model ++ "AggregateRawArgs".toList = m.model ++ "AggregateRaw" ++ "Args" := by
    intro m
    rw [List.append_assoc]
    rfl
  rw [List.mem_flatMap]
  constructor
  · rintro ⟨m, hm, hentry⟩
    rcases List.mem_append.mp hentry with hentry | hentry
    · split at hentry
      · next hraw =>
        cases List.mem_singleton.mp hentry
        exact ⟨_, .find hm (Option.isSome_iff_ne_none.mp hraw), hfind m⟩
      · exact absurd hentry List.not_mem_nil
    · split at hentry
      · next hraw =>
        cases List.mem_singleton.mp hentry
        exact ⟨_, .aggregate hm (Option.isSome_iff_ne_none.mp hraw), haggregate m⟩
      · exact absurd hentry List.not_mem_nil
  · rintro ⟨stem, hstem, rfl⟩
    cases hstem with
    | @find m hm hraw =>
      refine ⟨m, hm, List.mem_append_left _ ?_⟩
      rw [if_pos (Option.isSome_iff_ne_none.mpr hraw), ← hfind]
      exact List.mem_singleton_self _
    | @aggregate m hm hraw =>
      refine ⟨m, hm, List.mem_append_right _ ?_⟩
      rw [if_pos (Option.isSome_iff_ne_none.mpr hraw), ← haggregate]
      exact List.mem_singleton_self _

/-- An input type has at most one alias. -/
theorem stem_unique {other : Text} (h : RawAlias mappings name stem)
    (h' : RawAlias mappings name other) : stem = other := by
  generalize hname : name = name' at h'
  cases h with
  | find hm hraw =>
    cases h' with
    | find hm' hraw' =>
      rw [List.append_cancel_left (List.append_cancel_right hname)]
    | aggregate hm' hraw' =>
      exact absurd (congrArg List.head? hname) (by simp)
  | aggregate hm hraw =>
    cases h' with
    | find hm' hraw' =>
      exact absurd (congrArg List.head? hname) (by simp)
    | aggregate hm' hraw' =>
      rw [List.append_cancel_left (List.append_cancel_right hname)]

/-- No two input types have the same alias. -/
theorem name_unique {other : Text} (h : RawAlias mappings name stem)
    (h' : RawAlias mappings other stem) : name = other := by
  -- `FindRaw` and `AggregateRaw` are no ends of the same text
  have hends : ∀ s t : Text, s ++ "FindRaw".toList ≠ t ++ "AggregateRaw" :=
    Text.append_ne_append (by decide) (by decide)
  generalize hstem : stem = stem' at h'
  cases h with
  | find hm hraw =>
    cases h' with
    | find hm' hraw' =>
      rw [List.append_cancel_right hstem]
    | aggregate hm' hraw' =>
      exact absurd hstem (hends _ _)
  | aggregate hm hraw =>
    cases h' with
    | find hm' hraw' =>
      exact absurd hstem.symm (hends _ _)
    | aggregate hm' hraw' =>
      rw [List.append_cancel_right hstem]

/-- The name has the form by which raw operations are told. -/
theorem isRawOperation (h : RawAlias mappings name stem) : isRawOperation name = true := by
  have horder : ∀ first model : Text,
      occurInOrder first "Raw" (first ++ model ++ "Raw") = true := by
    intro first model
    rw [occurInOrder, List.append_assoc, Text.cut?_append]
    exact Text.occursIn_iff.mpr (List.suffix_append model _).isInfix
  cases h with
  | find => rw [QueryValidator.isRawOperation, horder, Bool.true_or]
  | aggregate => rw [QueryValidator.isRawOperation, horder "aggregate", Bool.or_true]

end RawAlias

/-- The alias of the input type `name` is the name of the input type `other`, which has no alias. -/
def RawAlias.Meets (mappings : List Mapping) (name other : Text) : Prop :=
  RawAlias mappings name other ∧ ∀ stem, ¬ RawAlias mappings other stem

end QueryValidator
