import QueryValidator.Proofs.Name.ObjectNames
import QueryValidator.Proofs.Name.Reference
import QueryValidator.Proofs.Text.Identifier

/-!
# Names computed from identifiers

Every name that a run computes from an identifier is one again: the schema of a type or of an
operation, the where input of a relation filter, the type of the client, and the operation that
query arguments belong to. The input type of a raw operation is the exception, since its alias has
the name of the model in front, where it did not stand before.
-/

namespace QueryValidator

open Text (isIdentifier isIdentifier_append isIdentifier_replace isIdentifier_capitalized all_part)

variable {name : Text}

theorem isIdentifier_enumIdent (h : isIdentifier name = true) :
    isIdentifier (enumIdent name) = true :=
  isIdentifier_append h (by decide)

theorem isIdentifier_objectIdent (h : isIdentifier name = true) :
    isIdentifier (objectIdent name) = true :=
  isIdentifier_append h (by decide)

theorem isIdentifier_clientType (h : isIdentifier name = true) :
    isIdentifier (clientType name) = true := by
  unfold clientType
  split
  · exact isIdentifier_append h (by decide)
  · exact h

/-- A relation filter may be without a model, so the new ending has to be an identifier itself. -/
theorem isIdentifier_whereInputOf (h : isIdentifier name = true) :
    isIdentifier (whereInputOf name) = true := by
  unfold whereInputOf
  split
  · next model hending =>
    rw [← Text.dropEnding?_eq_some_iff.mp hending] at h
    exact isIdentifier_replace h (by decide)
  · split
    · next model hending =>
      rw [← Text.dropEnding?_eq_some_iff.mp hending] at h
      exact isIdentifier_replace h (by decide)
    · exact h

theorem isIdentifier_operationIdent {model op : Text}
    (hmodel : model = [] ∨ isIdentifier model = true)
    (hop : isIdentifier (Text.capitalized op) = true) :
    isIdentifier (operationIdent model op) = true := by
  have hname : isIdentifier (Text.capitalized op ++ "Schema") = true :=
    isIdentifier_append hop (by decide)
  rw [operationIdent, List.append_assoc]
  rcases hmodel with rfl | hmodel
  · exact hname
  · exact isIdentifier_append (isIdentifier_capitalized hmodel) (all_part hname)

theorem Operation.isIdentifier_label (op : Operation) :
    isIdentifier (Text.capitalized op.label) = true := by
  cases op <;> decide

namespace ModelQuery

variable {q : ModelQuery}

/-- The model of a query is what stands before a mark, which may be nothing. -/
theorem model_of_ofName? (h : isIdentifier name = true) (hq : ofName? name = some q) :
    (q.model = [] ∨ isIdentifier q.model = true) ∧ q.query = "findMany".toList := by
  obtain ⟨⟨model, rest⟩, hcut, rfl⟩ := Option.map_eq_some_iff.mp hq
  rw [← Text.cut?_sound hcut, List.append_assoc] at h
  exact ⟨Text.isIdentifier_of_append h, rfl⟩

theorem isIdentifier_ident (h : isIdentifier name = true) (hq : ofName? name = some q) :
    isIdentifier q.ident = true := by
  obtain ⟨hmodel, hquery⟩ := model_of_ofName? h hq
  rw [ident, hquery]
  exact isIdentifier_operationIdent hmodel (by decide)

theorem isIdentifier_stem (h : isIdentifier name = true) (hq : ofName? name = some q) :
    isIdentifier q.stem = true := by
  obtain ⟨hmodel, hquery⟩ := model_of_ofName? h hq
  rw [stem, hquery]
  rcases hmodel with hnil | hmodel
  · rw [hnil]
    decide
  · exact isIdentifier_append (by decide) (all_part hmodel)

end ModelQuery

/-- Both names of an import may be written. -/
structure Import.Writable (i : Import) : Prop where
  ident : isIdentifier i.ident = true
  stem : isIdentifier i.stem = true

theorem Import.writable_enum (h : isIdentifier name = true) :
    Import.Writable ⟨enumIdent name, .enumeration, name⟩ :=
  ⟨isIdentifier_enumIdent h, h⟩

theorem Import.writable_object (h : isIdentifier name = true) :
    Import.Writable ⟨objectIdent name, .object, name⟩ :=
  ⟨isIdentifier_objectIdent h, h⟩

/-- Everything that a reference brings into a module may be written. -/
structure Reference.Writable (r : Reference) : Prop where
  ident : isIdentifier r.ident = true
  typeName : isIdentifier r.typeName = true
  imported : ∀ i, r.imported = some i → i.Writable

theorem Reference.writable_ofName (h : isIdentifier name = true) (isEnum : Bool) (owner : Text) :
    (Reference.ofName name isEnum owner).Writable := by
  have hinput := isIdentifier_whereInputOf h
  rcases ofName_cases name isEnum owner with ⟨q, hq, heq⟩ | heq | heq
  · have hident := ModelQuery.isIdentifier_ident h hq
    rw [heq]
    refine ⟨hident, h, ?_⟩
    rintro i ⟨⟩
    exact ⟨hident, ModelQuery.isIdentifier_stem h hq⟩
  · rw [heq]
    refine ⟨isIdentifier_enumIdent hinput, hinput, fun i hi => ?_⟩
    rw [(imported_toEnum hi).2]
    exact Import.writable_enum hinput
  · rw [heq]
    refine ⟨isIdentifier_objectIdent hinput, hinput, fun i hi => ?_⟩
    rw [(imported_toObject hi).2]
    exact Import.writable_object hinput

/-- The models of raw operations have names that may be written. -/
def RawModelsWritable (mappings : List Mapping) : Prop :=
  ∀ m ∈ mappings, m.findRaw ≠ none ∨ m.aggregateRaw ≠ none → isIdentifier m.model = true

theorem RawAlias.isIdentifier_stem {mappings : List Mapping} {stem : Text}
    (hmodels : RawModelsWritable mappings) (h : RawAlias mappings name stem) :
    isIdentifier stem = true := by
  cases h with
  | @find m hm hraw => exact isIdentifier_append (hmodels m hm (.inl hraw)) (by decide)
  | @aggregate m hm hraw => exact isIdentifier_append (hmodels m hm (.inr hraw)) (by decide)

/-- An input type is exported under names that may be written, also if it has an alias. -/
theorem ObjectNames.writable_ofName {c : Config} {mappings : List Mapping}
    (hraw : c.rawOperations = rawOperations mappings) (hmodels : RawModelsWritable mappings)
    (h : isIdentifier name = true) :
    isIdentifier (ofName name c).stem = true ∧ isIdentifier (ofName name c).typeName = true := by
  cases hargs : rawArguments? name c with
  | none =>
    rw [ofName_of_none hargs]
    exact ⟨h, isIdentifier_clientType h⟩
  | some args =>
    have hmem := mem_of_rawArguments? hargs
    rw [hraw] at hmem
    obtain ⟨stem, hstem, rfl⟩ := RawAlias.mem_rawOperations_iff.mp (Text.mem_of_mem_tableOf hmem)
    have hid := hstem.isIdentifier_stem hmodels
    rw [ofName_of_some hargs, Text.dropEnding?_append]
    exact ⟨hid, isIdentifier_clientType (isIdentifier_append hid (by decide))⟩

end QueryValidator
