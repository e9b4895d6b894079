import QueryValidator.Proofs.Query.Scope
import Mathlib.Logic.Basic

/-!
# What a module takes from the tables of a run

The module of an input type looks names up in two tables of the run, the enumerations and the raw
operations. Two configurations that find the same under every name give it the same body and the
same imports; if besides they have the same client and both or neither have a document database,
they give the same module (`resolved_eq`).
-/

namespace QueryValidator

/-- Every name is found in both configurations or in neither, and then with the same value. -/
structure Config.SameLookups (c c' : Config) : Prop where
  isEnum : ∀ name, c.isEnum name = c'.isEnum name
  rawOperations : ∀ name, c.rawOperations.lookup name = c'.rawOperations.lookup name

variable {c c' : Config}

namespace Config.SameLookups

theorem branch_eq (h : c.SameLookups c') (candidate : Candidate) (owner : Text) :
    candidate.branch c owner = candidate.branch c' owner := by
  unfold Candidate.branch
  simp only [h.isEnum]

theorem import?_eq (h : c.SameLookups c') (candidate : Candidate) (owner : Text) :
    candidate.import? c owner = candidate.import? c' owner := by
  unfold Candidate.import? Candidate.referenceFrom? Candidate.isEnum
  simp only [h.isEnum]

theorem entry?_eq (h : c.SameLookups c') (f : InputField) (owner : Text) :
    f.entry? c owner = f.entry? c' owner := by
  have halternatives : f.alternatives c owner = f.alternatives c' owner := by
    unfold InputField.alternatives
    simp only [h.branch_eq]
  rw [InputField.entry?, InputField.entry?, InputField.validator, InputField.validator,
    halternatives]

theorem entries_eq (h : c.SameLookups c') (o : InputObject) :
    (o.fields.filterMap fun f => f.entry? c o.name) =
      o.fields.filterMap fun f => f.entry? c' o.name := by
  simp only [h.entry?_eq]

theorem imports_eq (h : c.SameLookups c') (o : InputObject) : o.imports c = o.imports c' := by
  unfold InputObject.imports InputField.imports
  simp only [h.import?_eq]

/-- Of the settings only whether the data source is a document database tells names. -/
theorem objectNames_eq (h : c.SameLookups c')
    (hstore : c.provider = .mongodb ↔ c'.provider = .mongodb) (name : Text) :
    ObjectNames.ofName name c = ObjectNames.ofName name c' := by
  have hargs : ObjectNames.rawArguments? name c = ObjectNames.rawArguments? name c' := by
    unfold ObjectNames.rawArguments?
    simp only [hstore, h.rawOperations]
  rw [ObjectNames.ofName, ObjectNames.ofName, hargs]

end Config.SameLookups

theorem InputObject.resolved_eq (h : c.SameLookups c') (hclient : c.clientImport = c'.clientImport)
    (hstore : c.provider = .mongodb ↔ c'.provider = .mongodb) (o : InputObject) :
    o.resolved c = o.resolved c' := by
  rw [resolved, resolved, h.entries_eq, h.imports_eq, h.objectNames_eq hstore, hclient]

end QueryValidator
