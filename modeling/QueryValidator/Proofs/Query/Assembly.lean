import QueryValidator.Proofs.Query.Declarations

/-!
# What the module of an input type is assembled from

The fields are resolved one after the other, and the imports and the use of JSON are kept while
their candidates are looked at, before the rule for filters drops some of them. `assembled_of_schema`
says what the module has in the end, from the candidates alone: a key for each field that offers
something, the first of all imports of an identifier, and the JSON validator if any candidate is
JSON.
-/

namespace QueryValidator

open Zod (Expr)

/-! ### References to the module itself -/

namespace Reference

/-- The reference leads to the object or to the enumeration that has the name of the module's own
type. -/
def IsSelf (owner : Text) (r : Reference) : Prop :=
  r = toObject owner owner ∨ r = toEnum owner owner

instance (owner : Text) (r : Reference) : Decidable (r.IsSelf owner) :=
  inferInstanceAs (Decidable (_ ∨ _))

variable {raw owner : Text} {isEnum : Bool}

/-- What a reference imports is what it refers to. -/
theorem ident_of_imported {i : Import} (h : (ofName raw isEnum owner).imported = some i) :
    i.ident = (ofName raw isEnum owner).ident := by
  rcases ofName_cases raw isEnum owner with ⟨q, -, heq⟩ | heq | heq
  · rw [heq] at h ⊢
    rw [← Option.some.inj h]
    rfl
  · rw [heq] at h ⊢
    rw [(imported_toEnum h).2]
    rfl
  · rw [heq] at h ⊢
    rw [(imported_toObject h).2]
    rfl

/-- Only a reference to the module itself imports nothing. -/
theorem imported_eq_none_iff :
    (ofName raw isEnum owner).imported = none ↔ (ofName raw isEnum owner).IsSelf owner := by
  constructor
  · intro h
    rcases ofName_cases raw isEnum owner with ⟨q, -, heq⟩ | heq | heq
    · rw [heq] at h
      cases h
    · rw [heq] at h ⊢
      have hown : whereInputOf raw = owner := by
        by_contra hne
        rw [toEnum, if_neg hne] at h
        cases h
      exact Or.inr (by rw [hown])
    · rw [heq] at h ⊢
      have hown : whereInputOf raw = owner := by
        by_contra hne
        rw [toObject, if_neg hne] at h
        cases h
      exact Or.inl (by rw [hown])
  · rintro (h | h)
    · rw [h]
      exact if_pos rfl
    · rw [h]
      exact if_pos rfl

end Reference

/-! ### Candidates of an input type -/

namespace InputField

variable {config : Config} {owner : Text}

/-- A field has an entry if one of its candidates has a validator, under its own name. -/
theorem map_fst_entry_eq (f : InputField) :
    (f.entry? config owner).map Prod.fst =
      if f.candidates.any Candidate.isSupported then some f.name else none := by
  have hnone : f.supported = [] ↔ ¬ f.candidates.any Candidate.isSupported = true := by
    rw [supported, List.filter_eq_nil_iff]
    simp
  rw [InputField.entry?, Option.map_map]
  by_cases h : f.candidates.any Candidate.isSupported = true
  · have hoffered : f.offered ≠ [] := fun hn => hnone.mp (offered_eq_nil_iff.mp hn) h
    rw [validator_eq_some (forall₂_kept config owner f) hoffered, if_pos h]
    rfl
  · rw [validator_eq_none (hnone.mpr h), if_neg h]
    rfl

/-- The keys of the object are the names of the fields with a supported candidate. -/
theorem keys_eq (fs : List InputField) :
    (fs.filterMap fun f => f.entry? config owner).map Prod.fst =
      (fs.filter fun f => f.candidates.any Candidate.isSupported).map InputField.name := by
  rw [List.map_filterMap]
  simp only [map_fst_entry_eq]
  induction fs with
  | nil => rfl
  | cons f fs ih =>
    rw [List.filterMap_cons, List.filter_cons, ih]
    by_cases h : f.candidates.any Candidate.isSupported = true
    · rw [if_pos h, if_pos h]
      rfl
    · rw [if_neg h, if_neg h]

end InputField

namespace InputObject

variable {o : InputObject} {config : Config}

/-- All candidates, field by field. -/
def candidates (o : InputObject) : List Candidate :=
  o.fields.flatMap InputField.candidates

/-- The references of all candidates, also of those that no field offers. -/
def touched (o : InputObject) (config : Config) : List Reference :=
  o.candidates.filterMap fun c => c.referenceFrom? config o.name

theorem imports_eq_touched : o.imports config = (o.touched config).filterMap Reference.imported := by
  rw [touched, candidates, List.filterMap_filterMap, List.filterMap_flatMap]
  rfl

theorem offers_subset : o.offers ⊆ o.candidates := by
  intro c hc
  obtain ⟨f, hf, hcf⟩ := List.mem_flatMap.mp hc
  exact List.mem_flatMap.mpr ⟨f, hf, f.offered_subset hcf⟩

theorem references_subset : o.references config ⊆ o.touched config := by
  intro r hr
  obtain ⟨c, hc, hcr⟩ := mem_references.mp hr
  exact List.mem_filterMap.mpr ⟨c, offers_subset hc, hcr⟩

theorem usesJson_iff : o.usesJson = true ↔ ∃ c ∈ o.candidates, c.kind = .scalar .json := by
  simp only [usesJson, InputField.usesJson, Candidate.isJson, List.any_eq_true, beq_iff_eq,
    candidates, List.mem_flatMap]
  constructor
  · rintro ⟨f, hf, c, hc, hjson⟩
    exact ⟨c, ⟨f, hf, hc⟩, hjson⟩
  · rintro ⟨c, ⟨f, hf, hc⟩, hjson⟩
    exact ⟨f, hf, c, hc, hjson⟩

theorem exists_ofName_of_touched {r : Reference} (hr : r ∈ o.touched config) :
    ∃ raw isEnum, r = Reference.ofName raw isEnum o.name := by
  obtain ⟨c, -, hcr⟩ := List.mem_filterMap.mp hr
  obtain ⟨raw, -, rfl⟩ := Option.map_eq_some_iff.mp hcr
  exact ⟨raw, _, rfl⟩

/-- What the module of an input type is made of. -/
structure Assembled (o : InputObject) (config : Config) (t : Schema) : Prop where
  /-- The fields with a candidate that has a validator are the keys, in their order. -/
  keys : ∃ entries, t.body = .strict (.object entries) ∧
    entries.map Prod.fst =
      (o.fields.filter fun f => f.candidates.any Candidate.isSupported).map InputField.name
  /-- The imports are those of all candidates, in their order, each identifier where it is first
  imported. -/
  imports : t.imports.entries =
    ((o.touched config).filterMap Reference.imported).eraseDupsBy fun i j => i.ident == j.ident
  /-- The references that import nothing are those to the module itself. -/
  self : ∀ r ∈ o.touched config, r.imported = none ↔ r.IsSelf o.name
  json : ∃ a, t.object = some a ∧
    (a.usesJson = true ↔ ∃ c ∈ o.candidates, c.kind = .scalar .json)
  /-- What the expression refers to is the identifier of a candidate's reference. -/
  references : ∀ ident, (Expr.ref ident).OccursIn t.body → ∃ r ∈ o.touched config, ident = r.ident
  /-- All other references are imported. -/
  imported : ∀ r ∈ o.touched config, ¬ r.IsSelf o.name → t.imports.contains r.ident = true
  jsonDeclared : (Expr.scalar .json).OccursIn t.body → ∃ a, t.object = some a ∧ a.usesJson = true

theorem contains_of_not_self {r : Reference} (hr : r ∈ o.touched config)
    (hother : ¬ r.IsSelf o.name) : (o.resolved config).imports.contains r.ident = true := by
  obtain ⟨raw, isEnum, rfl⟩ := exists_ofName_of_touched hr
  obtain ⟨i, hi⟩ := Option.ne_none_iff_exists'.mp (mt Reference.imported_eq_none_iff.mp hother)
  have himported : i ∈ o.imports config := by
    rw [imports_eq_touched]
    exact List.mem_filterMap.mpr ⟨_, hr, hi⟩
  rw [imports_contains_iff, ← Reference.ident_of_imported hi]
  exact List.mem_map_of_mem himported

/-- **Assembly of an input type's module**: the keys are the fields with a supported candidate, the
imports are those of all candidates without the module itself and without repetitions, and JSON is
declared if a candidate is JSON; so that all that the expression refers to is there. -/
theorem assembled_of_schema {t : Schema} (h : o.schema config = .ok t) : o.Assembled config t := by
  obtain ⟨-, rfl⟩ := schema_eq_ok_iff.mp h
  constructor
  case keys => exact ⟨_, rfl, InputField.keys_eq o.fields⟩
  case imports => rw [resolved, ImportList.entries_insertAll, imports_eq_touched]
  case self =>
    intro r hr
    obtain ⟨raw, isEnum, rfl⟩ := exists_ofName_of_touched hr
    exact Reference.imported_eq_none_iff
  case json => exact ⟨_, rfl, usesJson_iff⟩
  case references =>
    intro ident hoccurs
    obtain ⟨r, hr, rfl⟩ := ref_occursIn_resolved_iff.mp hoccurs
    exact ⟨r, references_subset hr, rfl⟩
  case imported => exact fun r hr => contains_of_not_self hr
  case jsonDeclared =>
    intro hoccurs
    obtain ⟨c, hc, hjson⟩ := json_occursIn_resolved_iff.mp hoccurs
    exact ⟨_, rfl, usesJson_of_offers hc hjson⟩

/-- The filter of reviews: the author and the editor are records of one type, of the values of
`equals` only the list is offered, and the hint has no validator. -/
def reviewFilter : InputObject where
  name := "ReviewWhereInput"
  fields := [
    ⟨"NOT", false, false, [⟨.object "ReviewWhereInput" .generated, true⟩]⟩,
    ⟨"author", false, true, [⟨.object "UserRelationFilter" .generated, false⟩]⟩,
    ⟨"hint", false, false, [⟨.unsupported "FieldRef", false⟩]⟩,
    ⟨"equals", false, false, [⟨.enumeration "Grade" .library, false⟩, ⟨.scalar .json, true⟩]⟩,
    ⟨"editor", false, true, [⟨.object "UserWhereInput" .generated, false⟩]⟩]
  constraints := .free

theorem reviewFilter_assembled :
    reviewFilter.schema .initial = .ok (reviewFilter.resolved .initial) ∧
      reviewFilter.Assembled .initial (reviewFilter.resolved .initial) ∧
      (reviewFilter.resolved .initial).imports.entries.map Import.ident =
        ["UserWhereInputObjectSchema", "GradeSchema"] := by
  have hschema : reviewFilter.schema .initial = .ok (reviewFilter.resolved .initial) := rfl
  exact ⟨hschema, assembled_of_schema hschema, by decide⟩

end InputObject

end QueryValidator
