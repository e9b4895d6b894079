import QueryValidator.Proofs.Module.Grammar
import QueryValidator.Proofs.Query.Alternatives
import QueryValidator.Proofs.Run.Resolved

/-!
# Only identifiers are written as they stand

A run that succeeds has modules all of whose names are identifiers, also those that it computes from
other names, and the rest of a document reaches their texts in the literals of enumerations alone.
The checks of a run are on the names of a document; what they give for the names of a module is
followed here through candidates, fields and arguments.
-/

namespace QueryValidator

open Text (isIdentifier isIdentifier_append all_part)
open Zod (Expr)

/-! ### Candidates -/

namespace Candidate

variable {config : Config} {owner : Text} {c : Candidate} {b : Expr} {values : List Text}

theorem isIdentifier_of_reference? {name : Text} (hc : c.isWritable = true)
    (h : c.reference? = some name) : isIdentifier name = true := by
  rw [isWritable, h] at hc
  exact hc

theorem writable_listed {e : Expr} (h : e.Writable values) : (c.listed e).Writable values := by
  unfold listed
  split
  · exact .list h
  · exact h

theorem Branch.writable (h : Branch config owner c b) (hc : c.isWritable = true) :
    b.Writable values := by
  cases h with
  | scalar _ => exact writable_listed (.scalar _)
  | enumeration hkind =>
    have hname := isIdentifier_of_reference? hc (by rw [reference?, hkind])
    exact writable_listed (.deferred (.ref (Reference.writable_ofName hname true owner).ident))
  | @object name r hkind hr =>
    have hname := isIdentifier_of_reference? hc (by rw [reference?, hkind])
    have hwritable := hr ▸ Reference.writable_ofName hname (config.isEnum name) owner
    refine .cast (writable_listed (.deferred (.ref hwritable.ident))) ?_
    split
    · exact Expr.isTypeName_list hwritable.typeName
    · exact Expr.isTypeName_ofName hwritable.typeName

theorem writable_of_import? {i : Import} (hc : c.isWritable = true)
    (h : c.import? config owner = some i) : i.Writable := by
  obtain ⟨r, hr, hi⟩ := Option.bind_eq_some_iff.mp h
  obtain ⟨name, hname, rfl⟩ := Option.map_eq_some_iff.mp hr
  exact (Reference.writable_ofName (isIdentifier_of_reference? hc hname) _ owner).imported i hi

end Candidate

/-! ### Fields -/

namespace InputField

variable {config : Config} {owner : Text} {f : InputField} {values : List Text}

theorem writable_marked {several : Bool} {e : Expr} (h : e.Writable values) :
    (f.marked several e).Writable values := by
  have hinner : (if !f.isRequired && !(several && (f.isNullable && !isRelationField f.name))
      then Expr.optional e else e).Writable values := by
    split
    · exact .optional h
    · exact h
  unfold marked
  show Expr.Writable values (if _ then _ else _)
  split
  · exact .nullable hinner
  · exact hinner

theorem writable_typed (hf : f.violation? owner = none) {e : Expr} (h : e.Writable values) :
    (f.typed e).Writable values := by
  unfold typed
  split
  · next name hfirst =>
    obtain ⟨c, hc, hobject⟩ := List.exists_of_findSome?_eq_some hfirst
    have hreference : c.reference? = some name := by
      unfold Candidate.generatedObject? at hobject
      unfold Candidate.reference?
      split at hobject
      · next hkind => rw [hkind]; exact hobject
      · cases hobject
    have hname := Candidate.isIdentifier_of_reference?
      ((violation?_eq_none_iff.mp hf).2 c hc) hreference
    exact .cast h (Expr.isTypeName_ofName (isIdentifier_whereInputOf hname))
  · exact h

theorem writable_assembled (hf : f.violation? owner = none) {bs : List Expr}
    (h : ∀ b ∈ bs, b.Writable values) : (f.assembled bs).Writable values := by
  unfold assembled
  split
  · next b => exact writable_marked (h b (List.mem_singleton_self b))
  · exact writable_typed hf (writable_marked (.union h))

theorem writable_branches {cs : List Candidate} {bs : List Expr}
    (h : List.Forall₂ (Candidate.Branch config owner) cs bs)
    (hcs : ∀ c ∈ cs, c.isWritable = true) : ∀ b ∈ bs, b.Writable values := by
  induction h with
  | nil => exact fun b hb => absurd hb List.not_mem_nil
  | cons hb _ ih =>
    obtain ⟨hc, hcs⟩ := List.forall_mem_cons.mp hcs
    exact List.forall_mem_cons.mpr ⟨hb.writable hc, ih hcs⟩

theorem writable_validator (hf : f.violation? owner = none) {e : Expr}
    (h : f.validator config owner = some e) : e.Writable values := by
  obtain ⟨bs, hbs, -, rfl⟩ := exists_branches_of_validator h
  have hcandidates := (violation?_eq_none_iff.mp hf).2
  exact writable_assembled hf
    (writable_branches hbs fun c hc => hcandidates c (offered_subset f hc))

theorem writable_of_mem_imports (hf : f.violation? owner = none) {i : Import}
    (h : i ∈ f.imports config owner) : i.Writable := by
  obtain ⟨c, hc, hi⟩ := List.mem_filterMap.mp h
  exact Candidate.writable_of_import? ((violation?_eq_none_iff.mp hf).2 c hc) hi

end InputField

/-! ### Modules of single declarations -/

theorem EnumType.writable_resolved {e : EnumType} {values : List Text}
    (h : isIdentifier e.name = true) (hvalues : e.values ⊆ values) :
    e.resolved.Writable values where
  stem := h
  exportName := isIdentifier_enumIdent h
  imports := fun _ hi => absurd hi List.not_mem_nil
  body := .enumeration hvalues
  typeName := by rintro a ⟨⟩

theorem InputObject.writable_imports {o : InputObject} {config : Config}
    (hfields : ∀ f ∈ o.fields, f.violation? o.name = none) :
    ∀ i ∈ (o.resolved config).imports.entries, i.Writable := by
  intro i hi
  have hoffered := ImportList.mem_of_mem_insertAll_empty hi
  obtain ⟨f, hf, hif⟩ := List.mem_flatMap.mp hoffered
  exact InputField.writable_of_mem_imports (hfields f hf) hif

theorem InputObject.writable_resolved {o : InputObject} {config : Config} {mappings : List Mapping}
    {values : List Text} (hraw : config.rawOperations = rawOperations mappings)
    (hmodels : RawModelsWritable mappings) (h : isIdentifier o.name = true)
    (hfields : ∀ f ∈ o.fields, f.violation? o.name = none) :
    (o.resolved config).Writable values := by
  obtain ⟨hstem, htype⟩ := ObjectNames.writable_ofName hraw hmodels h
  have hentry : ∀ p ∈ o.fields.filterMap (fun f => f.entry? config o.name),
      isIdentifier p.1 = true ∧ p.2.Writable values := by
    intro p hp
    obtain ⟨f, hf, hentry⟩ := List.mem_filterMap.mp hp
    obtain ⟨e, he, rfl⟩ := Option.map_eq_some_iff.mp hentry
    exact ⟨(InputField.violation?_eq_none_iff.mp (hfields f hf)).1,
      InputField.writable_validator (hfields f hf) he⟩
  refine ⟨hstem, isIdentifier_objectIdent hstem, writable_imports hfields,
    .strict (.object (fun p hp => (hentry p hp).1) fun p hp => (hentry p hp).2), ?_⟩
  rintro a ⟨⟩
  exact htype

/-! ### Arguments -/

namespace ArgumentForm

/-- The endings of the input types that the form names may stand behind an identifier. -/
def hasNameEndings : ArgumentForm → Bool
  | .input ending => ending.all Text.isIdentifierPart
  | .fieldNames => true
  | .scalar _ => true
  | .list a => a.hasNameEndings
  | .optional a => a.hasNameEndings
  | .deferred a => a.hasNameEndings
  | .either a b => a.hasNameEndings && b.hasNameEndings

variable {model : Text} {values : List Text}

theorem writable_expr {a : ArgumentForm} (ha : a.hasNameEndings = true)
    (h : isIdentifier model = true) : (a.expr model).Writable values := by
  induction a with
  | input ending => exact .ref (isIdentifier_objectIdent (isIdentifier_append h ha))
  | fieldNames => exact .ref (isIdentifier_enumIdent (isIdentifier_append h (by decide)))
  | scalar s => exact .scalar s
  | list a ih => exact .list (ih ha)
  | optional a ih => exact (ih ha).markOptional
  | deferred a ih => exact .deferred (ih ha)
  | either a b iha ihb =>
    obtain ⟨ha, hb⟩ := Bool.and_eq_true_iff.mp ha
    refine .union ?_
    simpa using ⟨iha ha, ihb hb⟩

theorem writable_of_mem_imports {a : ArgumentForm} (ha : a.hasNameEndings = true)
    (h : isIdentifier model = true) {i : Import} (hi : i ∈ a.imports model) : i.Writable := by
  induction a with
  | input ending =>
    rw [List.mem_singleton.mp hi]
    exact Import.writable_object (isIdentifier_append h ha)
  | fieldNames =>
    rw [List.mem_singleton.mp hi]
    exact Import.writable_enum (isIdentifier_append h (by decide))
  | scalar s => exact absurd hi List.not_mem_nil
  | list a ih => exact ih ha hi
  | optional a ih => exact ih ha hi
  | deferred a ih => exact ih ha hi
  | either a b iha ihb =>
    obtain ⟨ha, hb⟩ := Bool.and_eq_true_iff.mp ha
    rcases List.mem_append.mp hi with hi | hi
    · exact iha ha hi
    · exact ihb hb hi

end ArgumentForm

namespace Operation

/-- The key of the argument and all names in it may be written for any model. -/
def isWritableArgument (p : Text × ArgumentForm) : Bool :=
  isIdentifier p.1 && p.2.hasNameEndings

theorem all_offer (offered : Bool) {key : Text} {form : ArgumentForm}
    (h : isWritableArgument (argument key form) = true) :
    (offer offered key form).all isWritableArgument = true := by
  unfold offer
  split
  · rw [List.all_cons, h]
    rfl
  · rfl

theorem all_projection (config : Config) (model : Model) (isDeferred : Bool) :
    (projection config model isDeferred).all isWritableArgument = true := by
  rw [projection, List.all_append, all_offer, all_offer, Bool.true_and] <;>
    cases isDeferred <;> decide

theorem all_ordering (config : Config) : (ordering config).all isWritableArgument = true := by
  unfold ordering
  cases config.searchesText <;> decide

theorem all_aggregateClauses (aggregates : List Aggregate) :
    (aggregates.map aggregateClause).all isWritableArgument = true := by
  rw [List.all_map, List.all_eq_true]
  intro a _
  cases a <;> decide

theorem all_arguments (op : Operation) (config : Config) (model : Model)
    (aggregates : List Aggregate) :
    (op.arguments config model aggregates).all isWritableArgument = true := by
  have hwindow : window.all isWritableArgument = true := by decide
  have hdistinct : distinctFields.all isWritableArgument = true := by decide
  have hskip : (offer config.provider.skipsDuplicates "skipDuplicates"
      (.optional (.scalar .boolean))).all isWritableArgument = true := all_offer _ (by decide)
  cases op <;> simp only [arguments, List.all_append, all_projection, all_ordering,
    all_aggregateClauses, hwindow, hdistinct, hskip, Bool.true_and, Bool.and_true] <;> decide

end Operation

theorem ModelOperation.writable_resolved {o : ModelOperation} {config : Config}
    {inputNames values : List Text} (hmodel : isIdentifier o.model.name = true)
    (haction : isIdentifier o.action = true) : (o.resolved config inputNames).Writable values := by
  have harguments : ∀ p ∈ o.operation.arguments config o.model
      (Aggregate.supported inputNames o.model.name),
      isIdentifier p.1 = true ∧ p.2.hasNameEndings = true := by
    intro p hp
    exact Bool.and_eq_true_iff.mp (List.all_eq_true.mp (Operation.all_arguments _ _ _ _) p hp)
  refine ⟨haction, isIdentifier_operationIdent (.inr hmodel) o.operation.isIdentifier_label,
    fun i hi => ?_, .object (List.forall_mem_map.mpr fun p hp => (harguments p hp).1)
      (List.forall_mem_map.mpr fun p hp =>
        ArgumentForm.writable_expr (harguments p hp).2 hmodel), ?_⟩
  · have hoffered := ImportList.mem_of_mem_insertAll_empty hi
    obtain ⟨p, hp, hip⟩ := List.mem_flatMap.mp hoffered
    exact ArgumentForm.writable_of_mem_imports (harguments p hp).2 hmodel hip
  · rintro a ⟨⟩

/-! ### Whole runs -/

namespace Document

variable {d : Document} {config : Config}

/-- The values of all enumerations, which are quoted wherever they are written. -/
def enumValues (d : Document) : List Text :=
  d.enumTypes.flatMap EnumType.values

theorem writable_of_mem (hraw : config.rawOperations = rawOperations d.mappings)
    (hmodels : RawModelsWritable d.mappings) {ts : List Schema} (hrun : d.schemas config = .ok ts)
    {t : Schema} (ht : t ∈ ts) :
    t.Writable d.enumValues ∧ t.ImportsClient config.clientImport := by
  obtain ⟨hd, hts⟩ := schemas_eq_ok_iff_resolved.mp hrun
  rw [hts, resolved, List.mem_append, List.mem_append] at ht
  rcases ht with (ht | ht) | ht
  · obtain ⟨e, he, rfl⟩ := List.mem_map.mp ht
    have hvalues : e.values ⊆ d.enumValues := fun v hv => List.mem_flatMap.mpr ⟨e, he, hv⟩
    refine ⟨EnumType.writable_resolved (hd.enumName e he) hvalues, ?_⟩
    rintro a ⟨⟩
  · obtain ⟨o, ho, rfl⟩ := List.mem_map.mp ht
    obtain ⟨_, -, hschema⟩ := exists_object_schema hrun ho
    obtain ⟨⟨hname, hfields⟩, -⟩ := InputObject.schema_eq_ok_iff.mp hschema
    refine ⟨InputObject.writable_resolved hraw hmodels hname hfields, ?_⟩
    rintro a ⟨⟩
    rfl
  · obtain ⟨o, ho, rfl⟩ := List.mem_map.mp ht
    obtain ⟨m, hm, hmodel, haction⟩ := mem_operations_iff.mp ho
    have hname : isIdentifier o.model.name = true := by
      rw [name_of_findModel? hmodel]
      exact hd.modelName m hm ⟨o.operation, by rw [haction]; simp⟩
    refine ⟨ModelOperation.writable_resolved hname (hd.actionName m hm _ _ haction), ?_⟩
    rintro a ⟨⟩

/-- **Only identifiers are written as they stand**: if the models of raw operations have identifiers
for names, every module of a run that succeeds has identifiers for all its names, and its text is
made by the grammar of modules from identifiers, the specifier of the client and the quoted values of
the document's enumerations. -/
theorem generate_writable (d : Document) (s : Settings) (workingDir output : Text)
    (hmodels : RawModelsWritable d.mappings) {ts : List Schema}
    (hrun : generate d s workingDir output = .ok ts) :
    ∀ t ∈ ts, t.Writable d.enumValues ∧
      ModuleText (clientSpecifier workingDir output s.clientOutput) d.enumValues t.category
        t.source := by
  intro t ht
  obtain ⟨hwritable, hclient⟩ := writable_of_mem rfl hmodels hrun ht
  exact ⟨hwritable, hwritable.moduleText hclient⟩

/-- A document with an enumeration whose value is code, and with the input type of a raw operation
among whose fields one refers to a relation filter and one to query arguments of no model. -/
def guarded : Document where
  models := [⟨"Post", []⟩]
  inputTypes := [
    ⟨"findPostRaw", .free, [
      ⟨"author", false, true, [⟨"UserRelationFilter", some .prisma, .inputObjectTypes, false⟩]⟩,
      ⟨"other", false, false, [⟨"FindManyArgs", some .prisma, .inputObjectTypes, true⟩,
        ⟨"a'; b()", none, .outputObjectTypes, false⟩]⟩]⟩]
  modelInputTypes := []
  schemaEnums := []
  modelEnums := [⟨"Status", ["\"]); process.exit(); //"]⟩]
  mappings := [⟨"Post", fun _ => none, some "findPostRaw", none⟩]

theorem guarded_writable : ∃ ts,
    generate guarded { Settings.initial with provider := .mongodb } "/" "out" = .ok ts ∧
      (ts.map Schema.stem = ["Status".toList, "PostFindRaw".toList]) ∧
      ∀ t ∈ ts, t.Writable guarded.enumValues ∧
        ModuleText "@prisma/client" guarded.enumValues t.category t.source := by
  have hmodels : RawModelsWritable guarded.mappings := by
    intro m hm _
    cases List.mem_singleton.mp hm
    decide
  have hrun : generate guarded { Settings.initial with provider := .mongodb } "/" "out" =
      .ok (guarded.resolved _) := rfl
  exact ⟨_, hrun, rfl, generate_writable _ _ _ _ hmodels hrun⟩

end Document

end QueryValidator
