import QueryValidator.Proofs.Run.Emission

/-!
# Violations of a document

A run fails exactly if the document has a violation, and then with the first one. What counts as a
violation, and in which order, is said by `Document.violations` on the document alone: neither the
settings nor the place of the output take part, nor what else the document says.
-/

namespace QueryValidator

/-! ### The error of a step -/

namespace Except

variable {ε α β : Type}

def error? : Except ε α → Option ε
  | .error e => some e
  | .ok _ => none

theorem error?_eq_some_iff {x : Except ε α} {e : ε} : error? x = some e ↔ x = .error e := by
  cases x <;> simp [error?]

theorem error?_eq_none_iff {x : Except ε α} : error? x = none ↔ ∃ a, x = .ok a := by
  cases x <;> simp [error?]

/-- What comes after a step is reached if the step succeeds. -/
theorem error?_bind {x : Except ε α} {f : α → Except ε β} (later : Option ε)
    (h : ∀ a, x = .ok a → error? (f a) = later) : error? (x >>= f) = (error? x).or later := by
  cases x with
  | error e => rfl
  | ok a => exact h a rfl

/-- The first step that fails decides. -/
theorem error?_mapM (f : α → Except ε β) (xs : List α) :
    error? (xs.mapM f) = xs.findSome? fun x => error? (f x) := by
  induction xs with
  | nil => rfl
  | cons x xs ih =>
    have hrest : ∀ y, f x = .ok y →
        error? (xs.mapM f >>= fun ys => pure (y :: ys)) = xs.findSome? fun x => error? (f x) := by
      intro y _
      rw [error?_bind none fun _ _ => rfl, ih, Option.or_none]
    rw [List.mapM_cons, error?_bind _ hrest, List.findSome?_cons]
    cases error? (f x) <;> rfl

end Except

/-! ### Violations in order -/

/-- The violation, unless the name can be written. -/
def Violation.unless (v : Violation) (name : Text) : List Violation :=
  if Text.isIdentifier name then [] else [v]

theorem Violation.unless_eq_nil_iff {v : Violation} {name : Text} :
    v.unless name = [] ↔ Text.isIdentifier name = true := by
  simp [Violation.unless]

def EnumType.violations (e : EnumType) : List Violation :=
  Violation.unless (.enumName e.name) e.name

/-- The type is an enumeration, or an input type that is not the client's own. -/
def TypeRef.IsReferred (r : TypeRef) : Prop :=
  r.location = .enumTypes ∨ r.location = .inputObjectTypes ∧ r.declaredIn ≠ some .model

instance (r : TypeRef) : Decidable r.IsReferred :=
  inferInstanceAs (Decidable (_ ∨ _ ∧ _))

/-- The other types that a field may have are never written. -/
def TypeRef.violations (owner field : Text) (r : TypeRef) : List Violation :=
  if r.IsReferred then Violation.unless (.candidateName owner field r.typeName) r.typeName else []

def Argument.violations (owner : Text) (a : Argument) : List Violation :=
  Violation.unless (.fieldName owner a.name) a.name ++
    a.inputTypes.flatMap (TypeRef.violations owner a.name)

def InputType.violations (t : InputType) : List Violation :=
  Violation.unless (.inputTypeName t.name) t.name ++ t.fields.flatMap (Argument.violations t.name)

/-- A mapping that enables no operation is not looked at. -/
def Mapping.violations (models : List Model) (m : Mapping) : List Violation :=
  if m.enabled.isEmpty then []
  else
    (if (findModel? models m.model).isNone then [.unknownModel m.model] else []) ++
    (Violation.unless (.modelName m.model) m.model ++
      m.enabled.flatMap fun (_, action) => Violation.unless (.actionName m.model action) action)

/-- The violations of the document in the order in which a run meets them. -/
def Document.violations (d : Document) : List Violation :=
  d.enumTypes.flatMap EnumType.violations ++
    (d.inputTypes.flatMap InputType.violations ++
      d.mappings.flatMap (Mapping.violations d.models))

/-! ### The error of each declaration -/

theorem EnumType.error?_schema (e : EnumType) : Except.error? e.schema = e.violations.head? := by
  unfold schema violations Violation.unless
  cases Text.isIdentifier e.name <;> rfl

/-- The candidates that are written are those of the types that are referred to. -/
theorem Candidate.reference?_ofTypeRef (r : TypeRef) :
    (Candidate.ofTypeRef r).reference? = if r.IsReferred then some r.typeName else none := by
  obtain ⟨name, declaredIn, location, isList⟩ := r
  cases location with
  | scalar =>
    cases hk : ScalarKind.ofName? name <;> simp [ofTypeRef, reference?, TypeRef.IsReferred, hk]
  | inputObjectTypes =>
    rcases declaredIn with _ | _ | _ <;> rfl
  | outputObjectTypes => rfl
  | enumTypes => rfl
  | fieldRefTypes => rfl

/-- The first candidate that cannot be written is the first violation of a type. -/
theorem Candidate.find?_violation (owner field : Text) (rs : List TypeRef) :
    (((rs.map Candidate.ofTypeRef).find? fun c => !c.isWritable).bind fun c =>
      c.reference?.map fun name => Violation.candidateName owner field name) =
      (rs.flatMap (TypeRef.violations owner field)).head? := by
  induction rs with
  | nil => rfl
  | cons r rs ih =>
    have href := Candidate.reference?_ofTypeRef r
    rw [List.map_cons, List.flatMap_cons, List.head?_append, ← ih]
    by_cases hr : r.IsReferred
    · rw [if_pos hr] at href
      cases hid : Text.isIdentifier r.typeName with
      | true =>
        rw [List.find?_cons_of_neg (by simp [isWritable, href, hid])]
        simp [TypeRef.violations, Violation.unless, hid]
      | false =>
        rw [List.find?_cons_of_pos (by simp [isWritable, href, hid])]
        simp [TypeRef.violations, Violation.unless, hr, hid, href]
    · rw [if_neg hr] at href
      rw [List.find?_cons_of_neg (by simp [isWritable, href])]
      simp [TypeRef.violations, hr]

theorem InputField.violation?_ofArgument (owner : Text) (a : Argument) :
    (InputField.ofArgument a).violation? owner = (a.violations owner).head? := by
  unfold violation? Argument.violations
  cases hname : Text.isIdentifier a.name with
  | false => simp [ofArgument, Violation.unless, hname]
  | true =>
    have hcandidates := Candidate.find?_violation owner a.name a.inputTypes
    simpa [ofArgument, Violation.unless, hname] using hcandidates

namespace InputObject

variable {config : Config}

theorem error?_resolveFields (owner : Text) (s : Scope) (fs : List InputField) :
    Except.error? (resolveFields config owner s fs) =
      fs.findSome? fun f => f.violation? owner := by
  induction fs generalizing s with
  | nil => rfl
  | cons f fs ih =>
    have hrest : ∀ entry, (s.resolve config owner f).2 = .ok entry →
        Except.error? (resolveFields config owner (s.resolve config owner f).1 fs >>= fun r =>
          pure (r.1, entry.toList ++ r.2)) = fs.findSome? fun f => f.violation? owner := by
      intro entry _
      rw [Except.error?_bind none fun _ _ => rfl, ih, Option.or_none]
    have hfield : Except.error? (s.resolve config owner f).2 = f.violation? owner := by
      unfold Scope.resolve
      cases f.violation? owner <;> rfl
    rw [resolveFields, List.findSome?_cons]
    refine (Except.error?_bind _ hrest).trans ?_
    rw [hfield]
    cases f.violation? owner <;> rfl

/-- Required fields are written like others. -/
theorem findSome?_markRequired (o : InputObject) (owner : Text) :
    (o.markRequired.fields.findSome? fun f => f.violation? owner) =
      o.fields.findSome? fun f => f.violation? owner := by
  unfold markRequired
  split
  · rw [List.findSome?_map]
    refine congrArg (o.fields.findSome? ·) (funext fun f => ?_)
    show InputField.violation? (if _ then _ else _) owner = _
    split <;> rfl
  · rfl

theorem error?_schema (t : InputType) :
    Except.error? ((ofInputType t).markRequired.schema config) = t.violations.head? := by
  have hfields : ((ofInputType t).fields.findSome? fun f => f.violation? t.name) =
      (t.fields.flatMap (Argument.violations t.name)).head? := by
    rw [List.head?_flatMap, ofInputType, List.findSome?_map]
    exact congrArg (t.fields.findSome? ·) (funext (InputField.violation?_ofArgument t.name))
  have hname : (ofInputType t).markRequired.name = t.name := markRequired_name _
  unfold schema InputType.violations
  rw [hname]
  cases hid : Text.isIdentifier t.name with
  | false => simp [Violation.unless, hid, Except.error?]
  | true =>
    rw [if_neg (by simp), Except.error?_bind none fun _ _ => rfl, Option.or_none,
      error?_resolveFields, findSome?_markRequired, hfields]
    simp [Violation.unless, hid]

end InputObject

theorem Operation.error?_schema (op : Operation) (config : Config) (model : Model)
    (aggregates : List Aggregate) (action : Text) :
    Except.error? (op.schema config model aggregates action) =
      (Violation.unless (.actionName model.name action) action).head? := by
  unfold schema Violation.unless
  cases Text.isIdentifier action <;> rfl

theorem Mapping.error?_schemas (m : Mapping) (config : Config) (models : List Model)
    (inputNames : List Text) :
    Except.error? (m.schemas config models inputNames) = (m.violations models).head? := by
  unfold schemas violations
  cases m.enabled.isEmpty with
  | true => rfl
  | false =>
    cases hmodel : findModel? models m.model with
    | none => rfl
    | some model =>
      have hname := name_of_findModel? hmodel
      cases hid : Text.isIdentifier m.model with
      | false => simp [hname, hid, Violation.unless, Except.error?]
      | true =>
        simp only [hname, hid, Bool.false_eq_true, if_false, Bool.not_true, Except.error?_mapM,
          Operation.error?_schema, Option.isNone_some, Violation.unless, List.nil_append, if_true,
          List.head?_flatMap]

/-- A run meets the violations of the document in their order. -/
theorem Document.error?_schemas (d : Document) (config : Config) :
    Except.error? (d.schemas config) = d.violations.head? := by
  have henums : Except.error? (d.enumTypes.mapM EnumType.schema) =
      (d.enumTypes.flatMap EnumType.violations).head? := by
    rw [Except.error?_mapM, List.head?_flatMap]
    exact congrArg (d.enumTypes.findSome? ·) (funext EnumType.error?_schema)
  have hobjects : Except.error? (d.inputObjects.mapM fun o => o.schema config) =
      (d.inputTypes.flatMap InputType.violations).head? := by
    rw [Except.error?_mapM, List.head?_flatMap, inputObjects, List.findSome?_map]
    exact congrArg (d.inputTypes.findSome? ·) (funext fun t => InputObject.error?_schema t)
  have hoperations : Except.error? (d.mappings.mapM fun m =>
        m.schemas config d.models (d.inputObjects.map InputObject.name)) =
      (d.mappings.flatMap (Mapping.violations d.models)).head? := by
    rw [Except.error?_mapM, List.head?_flatMap]
    exact congrArg (d.mappings.findSome? ·) (funext fun m => Mapping.error?_schemas m _ _ _)
  rw [violations, List.head?_append, List.head?_append, ← henums, ← hobjects, ← hoperations]
  refine Except.error?_bind _ fun enums _ => Except.error?_bind _ fun objects _ => ?_
  rw [Except.error?_bind none fun _ _ => rfl, Option.or_none]

/-! ### Documents that can be written -/

/-- Every name that a run writes is an identifier, and operations belong to models. -/
structure Document.Writable (d : Document) : Prop where
  enumName : ∀ e ∈ d.enumTypes, Text.isIdentifier e.name = true
  inputName : ∀ t ∈ d.inputTypes, Text.isIdentifier t.name = true
  fieldName : ∀ t ∈ d.inputTypes, ∀ a ∈ t.fields, Text.isIdentifier a.name = true
  typeName : ∀ t ∈ d.inputTypes, ∀ a ∈ t.fields, ∀ r ∈ a.inputTypes, r.IsReferred →
    Text.isIdentifier r.typeName = true
  modelKnown : ∀ m ∈ d.mappings, (∃ op, m.action op ≠ none) →
    ∃ model ∈ d.models, model.name = m.model
  modelName : ∀ m ∈ d.mappings, (∃ op, m.action op ≠ none) → Text.isIdentifier m.model = true
  actionName : ∀ m ∈ d.mappings, ∀ op action, m.action op = some action →
    Text.isIdentifier action = true

theorem TypeRef.violations_eq_nil_iff {owner field : Text} {r : TypeRef} :
    r.violations owner field = [] ↔ (r.IsReferred → Text.isIdentifier r.typeName = true) := by
  unfold violations
  by_cases h : r.IsReferred
  · rw [if_pos h, Violation.unless_eq_nil_iff]
    exact ⟨fun hid _ => hid, fun hid => hid h⟩
  · rw [if_neg h]
    exact ⟨fun _ hr => absurd hr h, fun _ => rfl⟩

theorem InputType.violations_eq_nil_iff {t : InputType} :
    t.violations = [] ↔ Text.isIdentifier t.name = true ∧ ∀ a ∈ t.fields,
      Text.isIdentifier a.name = true ∧
        ∀ r ∈ a.inputTypes, r.IsReferred → Text.isIdentifier r.typeName = true := by
  simp only [violations, Argument.violations, List.append_eq_nil_iff, List.flatMap_eq_nil_iff,
    Violation.unless_eq_nil_iff, TypeRef.violations_eq_nil_iff]

theorem Mapping.enabled_isEmpty_iff {m : Mapping} :
    m.enabled.isEmpty = true ↔ ¬ ∃ op, m.action op ≠ none := by
  rw [List.isEmpty_iff, List.eq_nil_iff_forall_not_mem]
  constructor
  · rintro h ⟨op, hop⟩
    obtain ⟨action, haction⟩ := Option.ne_none_iff_exists'.mp hop
    exact h (op, action) (mem_enabled.mpr haction)
  · rintro h ⟨op, action⟩ hmem
    exact h ⟨op, by rw [mem_enabled.mp hmem]; simp⟩

theorem findModel?_isNone_iff {models : List Model} {name : Text} :
    (findModel? models name).isNone = true ↔ ¬ ∃ model ∈ models, model.name = name := by
  simp [findModel?]

theorem Mapping.violations_eq_nil_iff {models : List Model} {m : Mapping} :
    m.violations models = [] ↔
      ((∃ op, m.action op ≠ none) →
        (∃ model ∈ models, model.name = m.model) ∧ Text.isIdentifier m.model = true) ∧
      ∀ op action, m.action op = some action → Text.isIdentifier action = true := by
  unfold violations
  by_cases hidle : m.enabled.isEmpty = true
  · have hnone := enabled_isEmpty_iff.mp hidle
    rw [if_pos hidle]
    refine ⟨fun _ => ⟨fun h => absurd h hnone, ?_⟩, fun _ => rfl⟩
    intro op action h
    exact absurd ⟨op, by rw [h]; simp⟩ hnone
  · have hsome : ∃ op, m.action op ≠ none := not_not.mp (mt enabled_isEmpty_iff.mpr hidle)
    rw [if_neg hidle, List.append_eq_nil_iff, List.append_eq_nil_iff, List.flatMap_eq_nil_iff,
      Violation.unless_eq_nil_iff]
    have hmodel : (if (findModel? models m.model).isNone then [Violation.unknownModel m.model]
        else []) = [] ↔ ∃ model ∈ models, model.name = m.model := by
      rw [← not_iff_not, ← findModel?_isNone_iff]
      simp
    have hactions : (∀ x ∈ m.enabled, Violation.unless (.actionName m.model x.2) x.2 = []) ↔
        ∀ op action, m.action op = some action → Text.isIdentifier action = true := by
      simp only [Violation.unless_eq_nil_iff, Prod.forall, mem_enabled]
    rw [hmodel, hactions, ← and_assoc]
    exact and_congr_left fun _ => ⟨fun h _ => h, fun h => h hsome⟩

theorem Document.violations_eq_nil_iff {d : Document} : d.violations = [] ↔ d.Writable := by
  simp only [violations, List.append_eq_nil_iff, List.flatMap_eq_nil_iff,
    InputType.violations_eq_nil_iff, Mapping.violations_eq_nil_iff, EnumType.violations,
    Violation.unless_eq_nil_iff]
  constructor
  · rintro ⟨henums, hinputs, hmappings⟩
    exact ⟨henums, fun t ht => (hinputs t ht).1, fun t ht a ha => ((hinputs t ht).2 a ha).1,
      fun t ht a ha => ((hinputs t ht).2 a ha).2, fun m hm h => ((hmappings m hm).1 h).1,
      fun m hm h => ((hmappings m hm).1 h).2, fun m hm => (hmappings m hm).2⟩
  · intro h
    exact ⟨h.enumName, fun t ht => ⟨h.inputName t ht, fun a ha =>
      ⟨h.fieldName t ht a ha, h.typeName t ht a ha⟩⟩,
      fun m hm => ⟨fun hop => ⟨h.modelKnown m hm hop, h.modelName m hm hop⟩, h.actionName m hm⟩⟩

/-- Whether a run has modules is a matter of its document alone. -/
theorem Document.exists_schemas_iff_writable (d : Document) (config : Config) :
    (∃ ts, d.schemas config = .ok ts) ↔ d.Writable := by
  rw [← Except.error?_eq_none_iff, error?_schemas, List.head?_eq_none_iff, violations_eq_nil_iff]

theorem Document.schemas_eq_error_iff {d : Document} {config : Config} {v : Violation} :
    d.schemas config = .error v ↔ d.violations.head? = some v := by
  rw [← Except.error?_eq_some_iff, error?_schemas]

/-- **When a run succeeds, and how it fails**: a run has modules exactly if every name that it
writes is an identifier and every mapping that enables an operation names a model of the document.
Otherwise its error is the first violation, of the enumerations before the input types and of these
before the mappings. -/
theorem generate_first_violation (d : Document) (s : Settings) (workingDir output : Text) :
    ((∃ ts, generate d s workingDir output = .ok ts) ↔ d.Writable) ∧
    ∀ v, generate d s workingDir output = .error v ↔ d.violations.head? = some v := by
  constructor
  · exact d.exists_schemas_iff_writable _
  · intro v
    exact Document.schemas_eq_error_iff

end QueryValidator
