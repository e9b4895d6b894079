import QueryValidator.Proofs.Query.Lookups
import QueryValidator.Proofs.Run.Independence

/-!
# The order of declarations

A run looks at its document in order, and keeps tables of all enumerations, raw operations and input
types. The tables answer by name, so that the order of the declarations does not show in them
(`Reordered.sameLookups`, `supported_of_perm`). Each declaration therefore has the same modules in
the run of a document and in that of the document in another order: the order of the declarations is
the order of the modules, and nothing else (`generate_reordered`).
-/

namespace QueryValidator

/-! ### Tables -/

/-- The table of raw operations finds the same whatever the order of the mappings: the name of the
input type tells the model. -/
theorem lookup_rawOperations_of_perm {ms ms' : List Mapping} (h : ms.Perm ms') (name : Text) :
    (rawOperations ms).lookup name = (rawOperations ms').lookup name := by
  refine Text.lookup_tableOf_of_perm (h.flatMap_right _) ?_ name
  intro key args args' hargs hargs'
  obtain ⟨stem, hstem, rfl⟩ := RawAlias.mem_rawOperations_iff.mp hargs
  obtain ⟨stem', hstem', rfl⟩ := RawAlias.mem_rawOperations_iff.mp hargs'
  rw [hstem.stem_unique hstem']

theorem Aggregate.supported_of_perm {names names' : List Text} (h : names.Perm names')
    (model : Text) : supported names model = supported names' model := by
  rw [supported, supported]
  refine List.filter_congr fun a _ => ?_
  rw [Bool.eq_iff_iff, List.contains_iff_mem, List.contains_iff_mem]
  exact (h.filterMap _).mem_iff

namespace Document

/-- The documents have the same declarations, in another order within each kind. -/
structure Reordered (d d' : Document) : Prop where
  models : d.models = d'.models
  modelInputTypes : d.modelInputTypes = d'.modelInputTypes
  inputTypes : d.inputTypes.Perm d'.inputTypes
  schemaEnums : d.schemaEnums.Perm d'.schemaEnums
  modelEnums : d.modelEnums.Perm d'.modelEnums
  mappings : d.mappings.Perm d'.mappings

variable {d d' : Document}

namespace Reordered

theorem symm (h : d.Reordered d') : d'.Reordered d :=
  ⟨h.models.symm, h.modelInputTypes.symm, h.inputTypes.symm, h.schemaEnums.symm, h.modelEnums.symm,
    h.mappings.symm⟩

theorem enumTypes (h : d.Reordered d') : d.enumTypes.Perm d'.enumTypes :=
  h.schemaEnums.append h.modelEnums

theorem inputNames (h : d.Reordered d') : d.inputNames.Perm d'.inputNames :=
  h.inputTypes.map _

/-- What can be written does not depend on the order. -/
theorem writable (h : d.Reordered d') (hd : d.Writable) : d'.Writable where
  enumName e he := hd.enumName e (h.enumTypes.mem_iff.mpr he)
  inputName t ht := hd.inputName t (h.inputTypes.mem_iff.mpr ht)
  fieldName t ht := hd.fieldName t (h.inputTypes.mem_iff.mpr ht)
  typeName t ht := hd.typeName t (h.inputTypes.mem_iff.mpr ht)
  modelKnown m hm := h.models ▸ hd.modelKnown m (h.mappings.mem_iff.mpr hm)
  modelName m hm := hd.modelName m (h.mappings.mem_iff.mpr hm)
  actionName m hm := hd.actionName m (h.mappings.mem_iff.mpr hm)

theorem sameLookups (h : d.Reordered d') (s : Settings) (workingDir output : Text) :
    (Config.ofRun s d workingDir output).SameLookups (Config.ofRun s d' workingDir output) where
  isEnum name := by
    rw [Bool.eq_iff_iff, isEnum_ofRun_iff, isEnum_ofRun_iff]
    simp only [DeclaresEnum, h.enumTypes.mem_iff]
  rawOperations := lookup_rawOperations_of_perm h.mappings

end Reordered

/-! ### Modules of single declarations -/

/-- The module of an input type, its required fields being marked. -/
def inputModule (config : Config) (t : InputType) : Schema :=
  (InputObject.ofInputType t).markRequired.resolved config

/-- The modules of the operations of a mapping. -/
def mappingModules (config : Config) (models : List Model) (inputNames : List Text)
    (m : Mapping) : List Schema :=
  (m.operations models).map fun o => o.resolved config inputNames

theorem Reordered.inputModule_eq (h : d.Reordered d') (s : Settings) (workingDir output : Text) :
    inputModule (Config.ofRun s d workingDir output) =
      inputModule (Config.ofRun s d' workingDir output) :=
  funext fun _ => InputObject.resolved_eq (h.sameLookups s workingDir output) rfl Iff.rfl _

/-- The arguments of an operation are those of its model, and the settings are the same. -/
theorem Reordered.mappingModules_eq (h : d.Reordered d') (s : Settings)
    (workingDir output : Text) :
    mappingModules (Config.ofRun s d workingDir output) d.models d.inputNames =
      mappingModules (Config.ofRun s d' workingDir output) d'.models d'.inputNames := by
  funext m
  have hsame : (Config.ofRun s d workingDir output).SameOperations
      (Config.ofRun s d' workingDir output) := ⟨rfl, rfl, rfl, rfl⟩
  have harguments : ∀ o : ModelOperation,
      o.resolved (Config.ofRun s d workingDir output) d.inputNames =
        o.resolved (Config.ofRun s d' workingDir output) d'.inputNames := by
    intro o
    rw [ModelOperation.resolved, ModelOperation.resolved, Operation.arguments_eq hsame,
      Aggregate.supported_of_perm h.inputNames]
  rw [mappingModules, mappingModules, h.models]
  exact List.map_congr_left fun o _ => harguments o

/-! ### Whole runs -/

/-- The modules `ts` are those of the declarations, kind by kind and in the order of the document:
`enum` and `object` give the module of each enumeration and of each input type, and `group` those of
each mapping. -/
structure Emits (d : Document) (config : Config) (enum : EnumType → Schema)
    (object : InputType → Schema) (group : Mapping → List Schema) (ts : List Schema) : Prop where
  enums : ∀ e ∈ d.enumTypes, e.schema = .ok (enum e)
  objects : ∀ t ∈ d.inputTypes,
    (InputObject.ofInputType t).markRequired.schema config = .ok (object t)
  groups : ∀ m ∈ d.mappings, m.schemas config d.models d.inputNames = .ok (group m)
  modules : ts = d.schemaEnums.map enum ++ d.modelEnums.map enum ++ d.inputTypes.map object ++
    d.mappings.flatMap group

theorem emits_of_schemas {config : Config} {ts : List Schema} (h : d.schemas config = .ok ts) :
    d.Emits config EnumType.resolved (inputModule config)
      (mappingModules config d.models d.inputNames) ts := by
  obtain ⟨enums, objects, operations, henums, hobjects, hoperations, -⟩ := schemas_eq_ok_iff.mp h
  rw [map_name_inputObjects] at hoperations
  constructor
  case enums =>
    intro e he
    obtain ⟨t, -, ht⟩ := Except.exists_result henums he
    rw [ht, EnumType.eq_resolved_of_schema ht]
  case objects =>
    intro t ht
    obtain ⟨u, -, hu⟩ := Except.exists_result hobjects (List.mem_map_of_mem ht)
    rw [hu, (InputObject.schema_eq_ok_iff.mp hu).2]
    rfl
  case groups =>
    intro m hm
    obtain ⟨us, -, hus⟩ := Except.exists_result hoperations hm
    rw [hus, Mapping.eq_resolved_of_schemas hus]
    rfl
  case modules =>
    rw [eq_resolved_of_schemas h, resolved, enumTypes, inputObjects, List.map_append, List.map_map,
      Document.operations, List.map_flatMap]
    rfl

/-- **The order of declarations**: a run succeeds whatever the order of a document's input types, of
the enumerations of each namespace and of its mappings. Every declaration has the same modules in
both runs, and the modules stand in the order of the declarations: first the enumerations, then the
input types, and then mapping by mapping the operations. -/
theorem generate_reordered (h : d.Reordered d') (s : Settings) (workingDir output : Text) :
    ((∃ ts, generate d s workingDir output = .ok ts) ↔
      ∃ ts, generate d' s workingDir output = .ok ts) ∧
    ∀ ts ts', generate d s workingDir output = .ok ts → generate d' s workingDir output = .ok ts' →
      ∃ enum object group,
        d.Emits (Config.ofRun s d workingDir output) enum object group ts ∧
        d'.Emits (Config.ofRun s d' workingDir output) enum object group ts' := by
  constructor
  · calc (∃ ts, generate d s workingDir output = .ok ts)
      _ ↔ d.Writable := d.exists_schemas_iff_writable _
      _ ↔ d'.Writable := ⟨h.writable, h.symm.writable⟩
      _ ↔ ∃ ts, generate d' s workingDir output = .ok ts := (d'.exists_schemas_iff_writable _).symm
  · intro ts ts' hts hts'
    have hemits' := emits_of_schemas hts'
    rw [← h.inputModule_eq, ← h.mappingModules_eq] at hemits'
    exact ⟨_, _, _, emits_of_schemas hts, hemits'⟩

/-- The document with the declarations of each kind in the opposite order. -/
def reversed (d : Document) : Document :=
  { d with
    inputTypes := d.inputTypes.reverse
    schemaEnums := d.schemaEnums.reverse
    modelEnums := d.modelEnums.reverse
    mappings := d.mappings.reverse }

theorem reordered_reversed (d : Document) : d.Reordered d.reversed :=
  ⟨rfl, rfl, d.inputTypes.reverse_perm.symm, d.schemaEnums.reverse_perm.symm,
    d.modelEnums.reverse_perm.symm, d.mappings.reverse_perm.symm⟩

/-- A document whose input types need all tables: one is that of a raw operation, one refers to an
enumeration, and one is that of an aggregate. -/
def newsroom : Document where
  models := [⟨"User", []⟩, ⟨"Post", []⟩]
  inputTypes := [⟨"findUserRaw", .free, []⟩,
    ⟨"PostWhereInput", .free,
      [⟨"status", false, false, [⟨"Status", some .prisma, .inputObjectTypes, false⟩]⟩]⟩,
    ⟨"PostCountAggregateInput", .free, []⟩]
  modelInputTypes := []
  schemaEnums := [⟨"SortOrder", ["asc", "desc"]⟩, ⟨"NullsOrder", ["first", "last"]⟩]
  modelEnums := [⟨"Status", ["DRAFT", "PUBLIC"]⟩]
  mappings := [
    ⟨"User", fun op => if op = .deleteMany then some "deleteManyUser" else none,
      some "findUserRaw", none⟩,
    ⟨"Post", fun op => if op = .aggregate then some "aggregatePost" else none, none, none⟩]

/-- Settings for a document database, on which raw operations have aliases. -/
def newsroomSettings : Settings := { Settings.initial with provider := .mongodb }

/-- In the opposite order, each kind of module is in the opposite order. -/
theorem newsroom_reordered : newsroom.Reordered newsroom.reversed ∧
    ∃ ts ts', generate newsroom newsroomSettings "/" "out" = .ok ts ∧
      generate newsroom.reversed newsroomSettings "/" "out" = .ok ts' ∧
      ts.map Schema.stem = ["SortOrder".toList, "NullsOrder", "Status", "UserFindRaw",
        "PostWhereInput", "PostCountAggregateInput", "deleteManyUser", "aggregatePost"] ∧
      ts'.map Schema.stem = ["NullsOrder".toList, "SortOrder", "Status", "PostCountAggregateInput",
        "PostWhereInput", "UserFindRaw", "aggregatePost", "deleteManyUser"] ∧
      ∃ enum object group,
        newsroom.Emits (Config.ofRun newsroomSettings newsroom "/" "out") enum object group ts ∧
        newsroom.reversed.Emits (Config.ofRun newsroomSettings newsroom.reversed "/" "out") enum
          object group ts' := by
  have hruns : ∃ ts ts', generate newsroom newsroomSettings "/" "out" = .ok ts ∧
      generate newsroom.reversed newsroomSettings "/" "out" = .ok ts' ∧
      ts.map Schema.stem = ["SortOrder".toList, "NullsOrder", "Status", "UserFindRaw",
        "PostWhereInput", "PostCountAggregateInput", "deleteManyUser", "aggregatePost"] ∧
      ts'.map Schema.stem = ["NullsOrder".toList, "SortOrder", "Status", "PostCountAggregateInput",
        "PostWhereInput", "UserFindRaw", "aggregatePost", "deleteManyUser"] :=
    ⟨_, _, rfl, rfl, rfl, rfl⟩
  obtain ⟨ts, ts', hts, hts', hstems, hstems'⟩ := hruns
  obtain ⟨-, hmodules⟩ := generate_reordered newsroom.reordered_reversed newsroomSettings "/" "out"
  exact ⟨newsroom.reordered_reversed, ts, ts', hts, hts', hstems, hstems', hmodules ts ts' hts hts'⟩

end Document

end QueryValidator
