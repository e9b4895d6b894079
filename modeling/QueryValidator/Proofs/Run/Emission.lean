import QueryValidator.Proofs.Query.Scope
import QueryValidator.Proofs.Steps
import QueryValidator.Run.Generation

/-!
# The modules of a run

What it means for a run to succeed: each declaration of the document has its modules, and the
modules of the run are these and no others. The lemmas on single declarations say which names their
modules have.
-/

namespace QueryValidator

/-! ### Unique lookups -/

namespace InputObject

/-- Marking required fields changes no candidates. -/
theorem exists_field_of_markRequired {o : InputObject} {f : InputField}
    (hf : f ∈ o.markRequired.fields) : ∃ g ∈ o.fields, f.candidates = g.candidates := by
  unfold markRequired at hf
  split at hf
  · obtain ⟨g, hg, rfl⟩ := List.mem_map.mp hf
    refine ⟨g, hg, ?_⟩
    split <;> rfl
  · exact ⟨f, hf, rfl⟩

theorem markRequired_name (o : InputObject) : o.markRequired.name = o.name := by
  unfold markRequired
  split <;> rfl

end InputObject

/-! ### Modules of single declarations -/

theorem EnumType.schema_names {e : EnumType} {t : Schema} (h : e.schema = .ok t) :
    Text.isIdentifier e.name = true ∧ t.category = .enumeration ∧ t.stem = e.name ∧
      t.exportName = enumIdent e.name := by
  unfold schema at h
  split at h
  · cases h
  · next hid =>
    cases h
    exact ⟨by simpa using hid, rfl, rfl, rfl⟩

/-- The module of an input type imports what its fields do. -/
theorem InputObject.schema_names {o : InputObject} {config : Config} {t : Schema}
    (h : o.schema config = .ok t) :
    Text.isIdentifier o.name = true ∧ t.category = .object ∧
      t.stem = (ObjectNames.ofName o.name config).stem ∧
      t.exportName = (ObjectNames.ofName o.name config).ident ∧
      t.imports = ImportList.empty.insertAll
        (o.fields.flatMap fun f => f.imports config o.name) := by
  obtain ⟨⟨hid, -⟩, rfl⟩ := schema_eq_ok_iff.mp h
  exact ⟨hid, rfl, rfl, rfl, rfl⟩

theorem Operation.schema_names {op : Operation} {config : Config} {model : Model}
    {aggregates : List Aggregate} {action : Text} {t : Schema}
    (h : op.schema config model aggregates action = .ok t) :
    Text.isIdentifier action = true ∧ t.category = .operation ∧ t.stem = action ∧
      t.exportName = operationIdent model.name op.label := by
  unfold schema at h
  split at h
  · cases h
  · next hid =>
    cases h
    exact ⟨by simpa using hid, rfl, rfl, rfl⟩

theorem name_of_findModel? {models : List Model} {name : Text} {model : Model}
    (h : findModel? models name = some model) : model.name = name := by
  simpa using List.find?_some h

theorem Mapping.mem_enabled {m : Mapping} {op : Operation} {action : Text} :
    (op, action) ∈ m.enabled ↔ m.action op = some action := by
  have hall : op ∈ Operation.all := by cases op <;> decide
  unfold enabled
  rw [List.mem_filterMap]
  constructor
  · rintro ⟨op', -, h⟩
    obtain ⟨action', ha, he⟩ := Option.map_eq_some_iff.mp h
    cases he
    exact ha
  · intro h
    exact ⟨op, hall, by rw [h]; rfl⟩

/-- The operations of a mapping whose modules are generated belong to a model of the document, and
each that is enabled has its module. -/
theorem Mapping.schemas_of_action {m : Mapping} {config : Config} {models : List Model}
    {inputNames : List Text} {ts : List Schema} (h : m.schemas config models inputNames = .ok ts)
    {op : Operation} {action : Text} (haction : m.action op = some action) :
    ∃ t ∈ ts, Text.isIdentifier action = true ∧ t.category = .operation ∧ t.stem = action ∧
      t.exportName = operationIdent m.model op.label := by
  have hmem := mem_enabled.mpr haction
  unfold schemas at h
  rw [if_neg (by simp [List.ne_nil_of_mem hmem])] at h
  cases hmodel : findModel? models m.model with
  | none => rw [hmodel] at h; cases h
  | some model =>
    have hname := name_of_findModel? hmodel
    simp only [hmodel] at h
    split at h
    · cases h
    · obtain ⟨t, ht, hschema⟩ := Except.exists_result (Except.mapM_eq_ok_iff.mp h) hmem
      rw [← hname]
      exact ⟨t, ht, Operation.schema_names hschema⟩

theorem Mapping.category_of_mem_schemas {m : Mapping} {config : Config} {models : List Model}
    {inputNames : List Text} {ts : List Schema} (h : m.schemas config models inputNames = .ok ts)
    {t : Schema} (ht : t ∈ ts) : t.category = .operation := by
  unfold schemas at h
  split at h
  · cases h
    exact absurd ht List.not_mem_nil
  · split at h
    · cases h
    · split at h
      · cases h
      · obtain ⟨_, -, hschema⟩ := Except.exists_step (Except.mapM_eq_ok_iff.mp h) ht
        exact (Operation.schema_names hschema).2.1

/-! ### Whole runs -/

/-- A run succeeds if every declaration of the document has its modules. -/
theorem Document.schemas_eq_ok_iff {d : Document} {config : Config} {ts : List Schema} :
    d.schemas config = .ok ts ↔
      ∃ (enums objects : List Schema) (operations : List (List Schema)),
        d.enumTypes.map EnumType.schema = enums.map .ok ∧
        d.inputObjects.map (fun o => o.schema config) = objects.map .ok ∧
        d.mappings.map (fun m => m.schemas config d.models (d.inputObjects.map InputObject.name)) =
          operations.map .ok ∧
        ts = enums ++ objects ++ operations.flatten := by
  unfold schemas
  simp only [Except.bind_eq_ok_iff, Except.mapM_eq_ok_iff, pure, Except.pure, Except.ok.injEq]
  constructor
  · rintro ⟨enums, henums, objects, hobjects, operations, hoperations, rfl⟩
    exact ⟨enums, objects, operations, henums, hobjects, hoperations, rfl⟩
  · rintro ⟨enums, objects, operations, henums, hobjects, hoperations, rfl⟩
    exact ⟨enums, henums, objects, hobjects, operations, hoperations, rfl⟩

/-- What the run generates for a declaration of the document is among its modules. -/
theorem Document.exists_enum_schema {d : Document} {config : Config} {ts : List Schema}
    (h : d.schemas config = .ok ts) {e : EnumType} (he : e ∈ d.enumTypes) :
    ∃ t ∈ ts, e.schema = .ok t := by
  obtain ⟨enums, objects, operations, henums, -, -, rfl⟩ := schemas_eq_ok_iff.mp h
  obtain ⟨t, ht, hschema⟩ := Except.exists_result henums he
  exact ⟨t, by simp [ht], hschema⟩

theorem Document.exists_object_schema {d : Document} {config : Config} {ts : List Schema}
    (h : d.schemas config = .ok ts) {o : InputObject} (ho : o ∈ d.inputObjects) :
    ∃ t ∈ ts, o.schema config = .ok t := by
  obtain ⟨enums, objects, operations, -, hobjects, -, rfl⟩ := schemas_eq_ok_iff.mp h
  obtain ⟨t, ht, hschema⟩ := Except.exists_result hobjects ho
  exact ⟨t, by simp [ht], hschema⟩

theorem Document.exists_operation_schema {d : Document} {config : Config} {ts : List Schema}
    (h : d.schemas config = .ok ts) {m : Mapping} (hm : m ∈ d.mappings) {op : Operation}
    {action : Text} (haction : m.action op = some action) :
    ∃ t ∈ ts, Text.isIdentifier action = true ∧ t.category = .operation ∧ t.stem = action ∧
      t.exportName = operationIdent m.model op.label := by
  obtain ⟨enums, objects, operations, -, -, hoperations, rfl⟩ := schemas_eq_ok_iff.mp h
  obtain ⟨group, hgroup, hschemas⟩ := Except.exists_result hoperations hm
  obtain ⟨t, ht, hnames⟩ := Mapping.schemas_of_action hschemas haction
  exact ⟨t, List.mem_append_right _ (List.mem_flatten.mpr ⟨group, hgroup, ht⟩), hnames⟩

/-- A module of the category of objects is that of an input type. -/
theorem Document.exists_input_of_object {d : Document} {config : Config} {ts : List Schema}
    (h : d.schemas config = .ok ts) {t : Schema} (ht : t ∈ ts) (hobject : t.category = .object) :
    ∃ o ∈ d.inputObjects, o.schema config = .ok t := by
  obtain ⟨enums, objects, operations, henums, hobjects, hoperations, rfl⟩ :=
    schemas_eq_ok_iff.mp h
  rcases List.mem_append.mp ht with ht | ht
  · rcases List.mem_append.mp ht with ht | ht
    · obtain ⟨e, -, he⟩ := Except.exists_step henums ht
      rw [(EnumType.schema_names he).2.1] at hobject
      cases hobject
    · exact Except.exists_step hobjects ht
  · obtain ⟨group, hgroup, ht⟩ := List.mem_flatten.mp ht
    obtain ⟨m, -, hm⟩ := Except.exists_step hoperations hgroup
    rw [Mapping.category_of_mem_schemas hm ht] at hobject
    cases hobject

end QueryValidator
