import QueryValidator.Proofs.Run.Violations

/-!
# The modules of a run as a function of the document

A run that succeeds has the modules that `Document.resolved` lists: one for each enumeration, for
each input type and for each operation that a mapping enables, in this order. What is said of a run
can so be said of the list, in which no step can fail (`Document.schemas_eq_ok_iff_resolved`).
-/

namespace QueryValidator

/-! ### Modules of single declarations -/

/-- The module of an enumeration if its name can be written. -/
def EnumType.resolved (e : EnumType) : Schema where
  category := .enumeration
  stem := e.name
  exportName := enumIdent e.name
  body := .enumeration e.values
  imports := .empty
  object := none

theorem EnumType.eq_resolved_of_schema {e : EnumType} {t : Schema} (h : e.schema = .ok t) :
    t = e.resolved := by
  unfold schema at h
  split at h
  · cases h
  · exact (Except.ok.inj h).symm

/-- An operation of a model and the action that calls it. -/
structure ModelOperation where
  model : Model
  operation : Operation
  action : Text

namespace ModelOperation

/-- The module of the operation if its action can be written. -/
def resolved (o : ModelOperation) (config : Config) (inputNames : List Text) : Schema where
  category := .operation
  stem := o.action
  exportName := operationIdent o.model.name o.operation.label
  body := .object
    ((o.operation.arguments config o.model (Aggregate.supported inputNames o.model.name)).map
      fun (key, a) => (key, a.expr o.model.name))
  imports := ImportList.empty.insertAll
    ((o.operation.arguments config o.model (Aggregate.supported inputNames o.model.name)).flatMap
      fun (_, a) => a.imports o.model.name)
  object := none

theorem eq_resolved_of_schema {o : ModelOperation} {config : Config} {inputNames : List Text}
    {t : Schema} (h : o.operation.schema config o.model
      (Aggregate.supported inputNames o.model.name) o.action = .ok t) :
    t = o.resolved config inputNames := by
  unfold Operation.schema at h
  split at h
  · cases h
  · exact (Except.ok.inj h).symm

theorem schema_eq_ok {o : ModelOperation} (config : Config) (inputNames : List Text)
    (h : Text.isIdentifier o.action = true) :
    o.operation.schema config o.model (Aggregate.supported inputNames o.model.name) o.action =
      .ok (o.resolved config inputNames) := by
  rw [Operation.schema, if_neg (by simp [h])]
  rfl

end ModelOperation

/-- The operations that the mapping enables, of the model that it names. -/
def Mapping.operations (m : Mapping) (models : List Model) : List ModelOperation :=
  match findModel? models m.model with
  | none => []
  | some model => m.enabled.map fun (op, action) => ⟨model, op, action⟩

theorem Mapping.operations_of_findModel? {m : Mapping} {models : List Model} {model : Model}
    (h : findModel? models m.model = some model) :
    m.operations models = m.enabled.map fun (op, action) => ⟨model, op, action⟩ := by
  rw [operations, h]

theorem Mapping.eq_resolved_of_schemas {m : Mapping} {config : Config} {models : List Model}
    {inputNames : List Text} {ts : List Schema} (h : m.schemas config models inputNames = .ok ts) :
    ts = (m.operations models).map fun o => o.resolved config inputNames := by
  unfold schemas at h
  cases hmodel : findModel? models m.model with
  | none =>
    rw [operations, hmodel]
    split at h
    · exact (Except.ok.inj h).symm
    · rw [hmodel] at h
      cases h
  | some model =>
    rw [operations_of_findModel? hmodel]
    split at h
    · next hidle =>
      rw [List.isEmpty_iff.mp hidle]
      exact (Except.ok.inj h).symm
    · simp only [hmodel] at h
      split at h
      · cases h
      · rw [List.map_map]
        refine Except.eq_map_of_map_eq_ok (fun p _ t ht => ?_) (Except.mapM_eq_ok_iff.mp h)
        exact ModelOperation.eq_resolved_of_schema (o := ⟨model, p.1, p.2⟩) ht

/-! ### Whole runs -/

namespace Document

/-- The names of the input types, by which the aggregates of a model are known. -/
def inputNames (d : Document) : List Text :=
  d.inputTypes.map InputType.name

theorem map_name_inputObjects (d : Document) :
    d.inputObjects.map InputObject.name = d.inputNames := by
  rw [inputObjects, inputNames, List.map_map]
  exact List.map_congr_left fun t _ => InputObject.markRequired_name _

/-- The operations that the mappings enable, in the order of their modules. -/
def operations (d : Document) : List ModelOperation :=
  d.mappings.flatMap fun m => m.operations d.models

/-- The modules of the document if all names can be written. -/
def resolved (d : Document) (config : Config) : List Schema :=
  d.enumTypes.map EnumType.resolved ++ d.inputObjects.map (fun o => o.resolved config) ++
    d.operations.map fun o => o.resolved config d.inputNames

theorem eq_resolved_of_schemas {d : Document} {config : Config} {ts : List Schema}
    (h : d.schemas config = .ok ts) : ts = d.resolved config := by
  obtain ⟨enums, objects, operations, henums, hobjects, hoperations, rfl⟩ :=
    schemas_eq_ok_iff.mp h
  rw [map_name_inputObjects] at hoperations
  have he := Except.eq_map_of_map_eq_ok (fun e _ t => EnumType.eq_resolved_of_schema) henums
  have ho := Except.eq_map_of_map_eq_ok
    (fun o _ t ht => (InputObject.schema_eq_ok_iff.mp ht).2) hobjects
  have hm := Except.eq_map_of_map_eq_ok
    (fun m _ t ht => Mapping.eq_resolved_of_schemas ht) hoperations
  rw [resolved, he, ho, hm, Document.operations, List.map_flatMap, List.flatMap_def]

/-- **The modules of a run**: a run succeeds exactly if every name that it writes is an identifier
and operations belong to models, and it then has the modules of the declarations in their order. -/
theorem schemas_eq_ok_iff_resolved {d : Document} {config : Config} {ts : List Schema} :
    d.schemas config = .ok ts ↔ d.Writable ∧ ts = d.resolved config := by
  constructor
  · intro h
    exact ⟨(d.exists_schemas_iff_writable config).mp ⟨ts, h⟩, eq_resolved_of_schemas h⟩
  · rintro ⟨hd, rfl⟩
    obtain ⟨ts, hts⟩ := (d.exists_schemas_iff_writable config).mpr hd
    rw [hts, eq_resolved_of_schemas hts]

/-- What holds between any two modules of a document holds within each category and between modules
of different categories. -/
theorem pairwise_resolved_iff {d : Document} {config : Config} {R : Schema → Schema → Prop} :
    (d.resolved config).Pairwise R ↔
      ((d.enumTypes.Pairwise fun e f => R e.resolved f.resolved) ∧
        (d.inputObjects.Pairwise fun o p => R (o.resolved config) (p.resolved config)) ∧
        d.operations.Pairwise fun o p =>
          R (o.resolved config d.inputNames) (p.resolved config d.inputNames)) ∧
      (∀ e ∈ d.enumTypes, ∀ o ∈ d.inputObjects, R e.resolved (o.resolved config)) ∧
      (∀ e ∈ d.enumTypes, ∀ o ∈ d.operations, R e.resolved (o.resolved config d.inputNames)) ∧
      ∀ o ∈ d.inputObjects, ∀ p ∈ d.operations,
        R (o.resolved config) (p.resolved config d.inputNames) := by
  rw [resolved, List.pairwise_append, List.pairwise_append, List.pairwise_map, List.pairwise_map,
    List.pairwise_map]
  simp only [List.mem_append, List.forall_mem_map, or_imp, forall_and]
  tauto

/-! ### Names of the declarations -/

variable {d : Document}

/-- The operation of a mapping whose model is in the document. -/
theorem mem_operations_iff {o : ModelOperation} :
    o ∈ d.operations ↔ ∃ m ∈ d.mappings, findModel? d.models m.model = some o.model ∧
      m.action o.operation = some o.action := by
  rw [operations, List.mem_flatMap]
  refine exists_congr fun m => and_congr_right fun _ => ?_
  cases hmodel : findModel? d.models m.model with
  | none => simp [Mapping.operations, hmodel]
  | some model =>
    rw [Mapping.operations_of_findModel? hmodel, List.mem_map]
    constructor
    · rintro ⟨⟨op, action⟩, hmem, rfl⟩
      exact ⟨rfl, Mapping.mem_enabled.mp hmem⟩
    · rintro ⟨hm, haction⟩
      exact ⟨(o.operation, o.action), Mapping.mem_enabled.mpr haction, by cases hm; rfl⟩

/-- Every operation that a mapping enables is there. -/
theorem exists_operation (hd : d.Writable) {m : Mapping} (hm : m ∈ d.mappings) {op : Operation}
    {action : Text} (haction : m.action op = some action) :
    ∃ model, findModel? d.models m.model = some model ∧ ⟨model, op, action⟩ ∈ d.operations := by
  have hknown := hd.modelKnown m hm ⟨op, by rw [haction]; simp⟩
  cases hmodel : findModel? d.models m.model with
  | none => exact absurd hknown (findModel?_isNone_iff.mp (by rw [hmodel]; rfl))
  | some model =>
    exact ⟨model, rfl, mem_operations_iff.mpr ⟨m, hm, hmodel, haction⟩⟩

/-- The actions that the mappings enable. -/
def actions (d : Document) : List Text :=
  d.mappings.flatMap fun m => m.enabled.map Prod.snd

theorem map_action_operations_sublist (d : Document) :
    (d.operations.map ModelOperation.action).Sublist d.actions := by
  have hmapping : ∀ m : Mapping, ((m.operations d.models).map ModelOperation.action).Sublist
      (m.enabled.map Prod.snd) := by
    intro m
    cases hmodel : findModel? d.models m.model with
    | none =>
      rw [Mapping.operations, hmodel]
      exact List.nil_sublist _
    | some model =>
      rw [Mapping.operations_of_findModel? hmodel, List.map_map]
      exact .refl _
  rw [operations, actions, List.map_flatMap]
  induction d.mappings with
  | nil => exact .refl _
  | cons m ms ih =>
    rw [List.flatMap_cons, List.flatMap_cons]
    exact (hmapping m).append ih

/-- Enumerations, input types and actions are told apart by their names. -/
structure DistinctNames (d : Document) : Prop where
  enumNames : (d.enumTypes.map EnumType.name).Nodup
  inputNames : d.inputNames.Nodup
  actions : d.actions.Nodup

namespace DistinctNames

theorem enumTypes_pairwise (h : d.DistinctNames) :
    d.enumTypes.Pairwise fun e f => e.name ≠ f.name :=
  List.pairwise_map.mp h.enumNames

theorem inputObjects_pairwise (h : d.DistinctNames) :
    d.inputObjects.Pairwise fun o p => o.name ≠ p.name := by
  have hnames := h.inputNames
  rw [← map_name_inputObjects] at hnames
  exact List.pairwise_map.mp hnames

theorem operations_pairwise (h : d.DistinctNames) :
    d.operations.Pairwise fun o p => o.action ≠ p.action :=
  List.pairwise_map.mp (h.actions.sublist d.map_action_operations_sublist)

end DistinctNames

end Document

end QueryValidator
