import QueryValidator.Proofs.Module.ImportList
import QueryValidator.Query.Type
import Mathlib.Data.List.TakeWhile

/-!
# What a module collects from its fields

A field that resolves adds the imports of all its candidates, in their order, and nothing else
(`Scope.addField_of_writable`). `resolveFields_ok_iff` says the same of all fields of an input
type: they resolve together exactly if none of them has a violation. `schema_eq_ok_iff` is what
follows for the module of the input type.
-/

namespace QueryValidator

open Zod (Expr)

namespace InputField

/-- A field without a violation has an identifier for its name, and no candidate whose reference is
none. -/
theorem violation?_eq_none_iff {f : InputField} {owner : Text} :
    f.violation? owner = none ↔
      Text.isIdentifier f.name = true ∧ ∀ c ∈ f.candidates, c.isWritable = true := by
  unfold violation?
  by_cases hn : Text.isIdentifier f.name = true
  · have href : ∀ c : Candidate, (!c.isWritable) = true → ∃ name, c.reference? = some name := by
      intro c hc
      cases hr : c.reference? with
      | none => simp [Candidate.isWritable, hr] at hc
      | some name => exact ⟨name, rfl⟩
    simp only [hn, Bool.not_true, Bool.false_eq_true, if_false, true_and]
    cases hf : f.candidates.find? fun c => !c.isWritable with
    | none => simpa using hf
    | some c =>
      have hnot := List.find?_some hf
      obtain ⟨name, hname⟩ := href c hnot
      have hc : c.isWritable = false := by simpa using hnot
      simp only [Option.bind_some, hname, Option.map_some, reduceCtorEq, false_iff, not_forall]
      exact ⟨c, List.mem_of_find?_eq_some hf, by simp [hc]⟩
  · simp [hn]

theorem looked_of_no_violation {f : InputField} {owner : Text} (h : f.violation? owner = none) :
    f.looked = f.candidates := by
  obtain ⟨hn, hc⟩ := violation?_eq_none_iff.mp h
  rw [looked, if_pos hn, List.takeWhile_eq_self_iff]
  exact hc

/-- The imports of all candidates, in their order. -/
def imports (f : InputField) (config : Config) (owner : Text) : List Import :=
  f.candidates.filterMap fun c => c.import? config owner

def usesJson (f : InputField) : Bool :=
  f.candidates.any Candidate.isJson

/-- The entry of the field in the object of `owner`, if it has one. -/
def entry? (f : InputField) (config : Config) (owner : Text) : Option (Text × Expr) :=
  (f.validator config owner).map (f.name, ·)

end InputField

namespace Scope

variable {config : Config} {owner : Text}

theorem foldl_addCandidate (cs : List Candidate) (s : Scope) :
    cs.foldl (addCandidate config owner) s =
      ⟨s.imports.insertAll (cs.filterMap fun c => c.import? config owner),
        s.usesJson || cs.any Candidate.isJson⟩ := by
  induction cs generalizing s with
  | nil => simp
  | cons c cs ih =>
    rw [List.foldl_cons, ih]
    cases hi : c.import? config owner <;>
      simp [addCandidate, hi, ImportList.insertAll_cons, Bool.or_assoc]

/-- The scope after a field that has no violation. -/
theorem addField_of_writable {f : InputField} (h : f.violation? owner = none) (s : Scope) :
    s.addField config owner f =
      ⟨s.imports.insertAll (f.imports config owner), s.usesJson || f.usesJson⟩ := by
  rw [addField, InputField.looked_of_no_violation h, foldl_addCandidate]
  rfl

theorem resolve_of_writable {f : InputField} (h : f.violation? owner = none) (s : Scope) :
    s.resolve config owner f = (s.addField config owner f, .ok (f.entry? config owner)) := by
  simp only [resolve, h]
  rfl

/-- A field resolves to an entry if it has no violation and a validator. -/
theorem resolve_eq_some {f : InputField} {s : Scope} {name : Text} {e : Expr}
    (h : (s.resolve config owner f).2 = .ok (some (name, e))) :
    f.violation? owner = none ∧ name = f.name ∧ f.validator config owner = some e := by
  cases hv : f.violation? owner with
  | some v =>
    simp only [resolve, hv] at h
    cases h
  | none =>
    rw [resolve_of_writable hv] at h
    obtain ⟨e', he, heq⟩ := Option.map_eq_some_iff.mp (Except.ok.inj h)
    cases heq
    exact ⟨rfl, rfl, he⟩

end Scope

namespace InputObject

variable {config : Config} {owner : Text}

/-- The fields resolve together if none has a violation; the scope then has the imports of all
fields, and the entries are those of the fields that have one. -/
theorem resolveFields_ok_iff {fs : List InputField} {s : Scope}
    {r : Scope × List (Text × Expr)} :
    resolveFields config owner s fs = .ok r ↔
      (∀ f ∈ fs, f.violation? owner = none) ∧
      r = (⟨s.imports.insertAll (fs.flatMap fun f => f.imports config owner),
            s.usesJson || fs.any InputField.usesJson⟩,
          fs.filterMap fun f => f.entry? config owner) := by
  induction fs generalizing s r with
  | nil => simp [resolveFields, eq_comm]
  | cons f fs ih =>
    cases hv : f.violation? owner with
    | some v =>
      simp [resolveFields, Scope.resolve, hv, bind, Except.bind]
    | none =>
      rw [resolveFields, Scope.resolve_of_writable hv, Scope.addField_of_writable hv]
      cases hr : resolveFields config owner
          ⟨s.imports.insertAll (f.imports config owner), s.usesJson || f.usesJson⟩ fs with
      | error v =>
        have hnot : ¬ ∀ g ∈ fs, g.violation? owner = none := by
          intro hall
          rw [ih.mpr ⟨hall, rfl⟩] at hr
          exact absurd hr (by simp)
        simp [bind, Except.bind, hr, hv, hnot]
      | ok r' =>
        obtain ⟨hall, rfl⟩ := ih.mp hr
        have hentries : (f :: fs).filterMap (fun g => g.entry? config owner) =
            (f.entry? config owner).toList ++ fs.filterMap (fun g => g.entry? config owner) := by
          cases he : f.entry? config owner <;> simp [he]
        have hmem : ∀ g ∈ f :: fs, g.violation? owner = none :=
          List.forall_mem_cons.mpr ⟨hv, hall⟩
        simp only [bind, Except.bind, pure, Except.pure, hr, hentries, List.flatMap_cons,
          List.any_cons, ImportList.insertAll_append, Bool.or_assoc, Except.ok.injEq]
        exact ⟨fun h => ⟨hmem, h.symm⟩, fun h => h.2.symm⟩

/-- The imports of all fields, in their order and with repetitions. -/
def imports (o : InputObject) (config : Config) : List Import :=
  o.fields.flatMap fun f => f.imports config o.name

def usesJson (o : InputObject) : Bool :=
  o.fields.any InputField.usesJson

/-- The module of the input type if all names can be written. -/
def resolved (o : InputObject) (config : Config) : Schema where
  category := .object
  stem := (ObjectNames.ofName o.name config).stem
  exportName := (ObjectNames.ofName o.name config).ident
  body := .strict (.object (o.fields.filterMap fun f => f.entry? config o.name))
  imports := ImportList.empty.insertAll (o.imports config)
  object := some
    ⟨(ObjectNames.ofName o.name config).typeName, config.clientImport, o.usesJson⟩

theorem schema_eq_ok_iff {o : InputObject} {t : Schema} :
    o.schema config = .ok t ↔
      (Text.isIdentifier o.name = true ∧ ∀ f ∈ o.fields, f.violation? o.name = none) ∧
        t = o.resolved config := by
  unfold schema
  cases hid : Text.isIdentifier o.name with
  | false => simp
  | true =>
    cases hr : resolveFields config o.name .empty o.fields with
    | error v =>
      have hnot : ¬ ∀ f ∈ o.fields, f.violation? o.name = none := by
        intro hall
        rw [resolveFields_ok_iff.mpr ⟨hall, rfl⟩] at hr
        cases hr
      simp [bind, Except.bind, hnot]
    | ok r =>
      obtain ⟨hall, rfl⟩ := resolveFields_ok_iff.mp hr
      constructor
      · rintro ⟨⟩
        exact ⟨⟨rfl, hall⟩, rfl⟩
      · rintro ⟨-, rfl⟩
        rfl

end InputObject

end QueryValidator
