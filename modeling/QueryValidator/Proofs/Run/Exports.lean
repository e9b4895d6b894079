import Mathlib.Data.List.Nodup
import QueryValidator.Proofs.Name.Export
import QueryValidator.Proofs.Name.ObjectNames
import QueryValidator.Proofs.Run.Links
import QueryValidator.Proofs.Run.Resolved

/-!
# Exported names of a run

The index exports every module again, so the names of all modules are in one space. Even if the
names of a document are distinct, those that it exports may not be: an enumeration can have the name
of an object's or an operation's schema, and two models can differ in their first letter only.
`exportNames_nodup_iff` says that there is no other way.
-/

namespace QueryValidator.Document

variable {d : Document} {config : Config} {ts : List Schema}

/-- No enumeration is named like the schema of an object or of an operation, and no two models with
the same capitalised name enable the same operation. -/
structure Unambiguous (d : Document) : Prop where
  enumObject : ∀ e ∈ d.enumTypes, ∀ t ∈ d.inputTypes, e.name ≠ t.name ++ "Object"
  enumOperation : ∀ e ∈ d.enumTypes, ∀ m ∈ d.mappings, ∀ op, m.action op ≠ none →
    e.name ≠ Text.capitalized m.model ++ op.label
  operation : ∀ m ∈ d.mappings, ∀ m' ∈ d.mappings, m.model ≠ m'.model →
    Text.capitalized m.model = Text.capitalized m'.model →
      ∀ op, m.action op = none ∨ m'.action op = none

/-! ### Names of each category -/

theorem enums_exportName_ne (h : d.DistinctNames) :
    d.enumTypes.Pairwise fun e f => e.resolved.exportName ≠ f.resolved.exportName :=
  h.enumTypes_pairwise.imp fun hne heq => hne (enumIdent_inj.mp heq)

theorem exportName_object (hprovider : config.provider ≠ .mongodb) (o : InputObject) :
    (o.resolved config).exportName = objectIdent o.name := by
  have hname : ObjectNames.ofName o.name config = ⟨o.name, clientType o.name⟩ :=
    ObjectNames.ofName_of_not_raw fun h => absurd h hprovider
  exact congrArg ObjectNames.ident hname

theorem objects_exportName_ne (h : d.DistinctNames) (hprovider : config.provider ≠ .mongodb) :
    d.inputObjects.Pairwise fun o p =>
      (o.resolved config).exportName ≠ (p.resolved config).exportName := by
  refine h.inputObjects_pairwise.imp fun {o p} hne heq => hne ?_
  rw [exportName_object hprovider, exportName_object hprovider] at heq
  exact objectIdent_inj.mp heq

/-- An operation is told by its model and its kind if each model has one mapping. -/
theorem eq_of_mem_operations (hmappings : (d.mappings.map Mapping.model).Nodup)
    {o p : ModelOperation} (ho : o ∈ d.operations) (hp : p ∈ d.operations)
    (hmodel : o.model.name = p.model.name) (hop : o.operation = p.operation) : o = p := by
  obtain ⟨m, hm, hfound, haction⟩ := mem_operations_iff.mp ho
  obtain ⟨m', hm', hfound', haction'⟩ := mem_operations_iff.mp hp
  rw [name_of_findModel? hfound, name_of_findModel? hfound'] at hmodel
  -- both come from one mapping, which has one model and one action for the kind
  cases List.inj_on_of_nodup_map hmappings hm hm' hmodel
  obtain ⟨model, op, action⟩ := o
  obtain ⟨model', op', action'⟩ := p
  cases hop
  cases hfound.symm.trans hfound'
  cases haction.symm.trans haction'
  rfl

/-- The operations of different models are told apart unless their capitalised names are the
same. -/
theorem operations_exportName_ne_iff (h : d.DistinctNames)
    (hmappings : (d.mappings.map Mapping.model).Nodup) (hd : d.Writable) :
    (d.operations.Pairwise fun o p =>
        (o.resolved config d.inputNames).exportName ≠
          (p.resolved config d.inputNames).exportName) ↔
      ∀ m ∈ d.mappings, ∀ m' ∈ d.mappings, m.model ≠ m'.model →
        Text.capitalized m.model = Text.capitalized m'.model →
          ∀ op, m.action op = none ∨ m'.action op = none := by
  rw [← List.pairwise_map]
  constructor
  · intro hpairs m hm m' hm' hne hcapital op
    by_contra hboth
    rw [not_or] at hboth
    obtain ⟨action, haction⟩ := Option.ne_none_iff_exists'.mp hboth.1
    obtain ⟨action', haction'⟩ := Option.ne_none_iff_exists'.mp hboth.2
    obtain ⟨model, hmodel, ho⟩ := exists_operation hd hm haction
    obtain ⟨model', hmodel', hp⟩ := exists_operation hd hm' haction'
    have heq : operationIdent model.name op.label = operationIdent model'.name op.label := by
      rw [name_of_findModel? hmodel, name_of_findModel? hmodel']
      exact operationIdent_inj.mpr ⟨hcapital, rfl⟩
    cases List.inj_on_of_nodup_map hpairs ho hp heq
    exact hne ((name_of_findModel? hmodel).symm.trans (name_of_findModel? hmodel'))
  · intro hclear
    have hnodup : d.operations.Nodup :=
      List.Nodup.of_map _ (List.pairwise_map.mpr h.operations_pairwise)
    refine List.Nodup.map_on (fun o ho p hp heq => ?_) hnodup
    obtain ⟨hcapital, hop⟩ := operationIdent_inj.mp heq
    by_cases hmodels : o.model.name = p.model.name
    · exact eq_of_mem_operations hmappings ho hp hmodels hop
    · obtain ⟨m, hm, hmodel, haction⟩ := mem_operations_iff.mp ho
      obtain ⟨m', hm', hmodel', haction'⟩ := mem_operations_iff.mp hp
      rw [name_of_findModel? hmodel, name_of_findModel? hmodel'] at hcapital hmodels
      rcases hclear m hm m' hm' hmodels hcapital o.operation with hnone | hnone
      · rw [haction] at hnone
        cases hnone
      · rw [hop, haction'] at hnone
        cases hnone

/-! ### Names of different categories -/

theorem enum_object_exportName_ne_iff (hprovider : config.provider ≠ .mongodb) :
    (∀ e ∈ d.enumTypes, ∀ o ∈ d.inputObjects,
        e.resolved.exportName ≠ (o.resolved config).exportName) ↔
      ∀ e ∈ d.enumTypes, ∀ t ∈ d.inputTypes, e.name ≠ t.name ++ "Object" := by
  refine forall₂_congr fun e _ => ?_
  rw [inputObjects, List.forall_mem_map]
  refine forall₂_congr fun t _ => not_congr ?_
  rw [exportName_object hprovider, InputObject.markRequired_name]
  exact enumIdent_eq_objectIdent_iff

theorem enum_operation_exportName_ne_iff (hd : d.Writable) :
    (∀ e ∈ d.enumTypes, ∀ o ∈ d.operations,
        e.resolved.exportName ≠ (o.resolved config d.inputNames).exportName) ↔
      ∀ e ∈ d.enumTypes, ∀ m ∈ d.mappings, ∀ op, m.action op ≠ none →
        e.name ≠ Text.capitalized m.model ++ op.label := by
  refine forall₂_congr fun e _ => ?_
  constructor
  · intro hne m hm op hsome heq
    obtain ⟨action, haction⟩ := Option.ne_none_iff_exists'.mp hsome
    obtain ⟨model, hmodel, ho⟩ := exists_operation hd hm haction
    rw [← name_of_findModel? hmodel] at heq
    exact hne _ ho (enumIdent_eq_operationIdent_iff.mpr heq)
  · intro hne o ho heq
    obtain ⟨m, hm, hmodel, haction⟩ := mem_operations_iff.mp ho
    have hname := enumIdent_eq_operationIdent_iff.mp heq
    rw [name_of_findModel? hmodel] at hname
    exact hne m hm o.operation (by rw [haction]; simp) hname

theorem object_operation_exportName_ne (hprovider : config.provider ≠ .mongodb) :
    ∀ o ∈ d.inputObjects, ∀ p ∈ d.operations,
      (o.resolved config).exportName ≠ (p.resolved config d.inputNames).exportName := by
  intro o _ p _
  rw [exportName_object hprovider]
  exact objectIdent_ne_operationIdent _ _ _

/-- **Exported names of a run**: if the enumerations, the input types, the actions and the models of
the mappings have distinct names, all modules of a run export different names exactly if the
document is unambiguous. -/
theorem exportNames_nodup_iff {s : Settings} {workingDir output : Text} (h : d.DistinctNames)
    (hmappings : (d.mappings.map Mapping.model).Nodup) (hprovider : s.provider ≠ .mongodb)
    (hrun : generate d s workingDir output = .ok ts) :
    (ts.map Schema.exportName).Nodup ↔ d.Unambiguous := by
  obtain ⟨hd, rfl⟩ := schemas_eq_ok_iff_resolved.mp hrun
  rw [List.Nodup, List.pairwise_map, pairwise_resolved_iff,
    operations_exportName_ne_iff h hmappings hd, enum_object_exportName_ne_iff hprovider,
    enum_operation_exportName_ne_iff hd]
  constructor
  · rintro ⟨⟨-, -, hoperation⟩, henumObject, henumOperation, -⟩
    exact ⟨henumObject, henumOperation, hoperation⟩
  · intro hclear
    exact ⟨⟨enums_exportName_ne h, objects_exportName_ne h hprovider, hclear.operation⟩,
      hclear.enumObject, hclear.enumOperation, object_operation_exportName_ne hprovider⟩

theorem blog_unambiguous : blog.Unambiguous := by
  constructor
  · decide
  · intro e he m hm op _
    cases List.mem_singleton.mp he
    cases List.mem_singleton.mp hm
    cases op <;> decide
  · intro m hm m' hm' hne
    cases List.mem_singleton.mp hm
    cases List.mem_singleton.mp hm'
    exact absurd rfl hne

theorem blog_exportNames_nodup : ∃ ts, generate blog .initial "/" "out" = .ok ts ∧
    (ts.map Schema.exportName).Nodup := by
  have hnames : blog.DistinctNames := by
    constructor <;> decide
  have hrun : generate blog .initial "/" "out" = .ok (blog.resolved _) := rfl
  refine ⟨_, hrun, ?_⟩
  exact (exportNames_nodup_iff hnames (by decide) (by decide) hrun).mpr blog_unambiguous

/-- A document with an enumeration that is named like the schema of an input type. -/
def shadowedFilter : Document where
  models := [⟨"User", []⟩]
  inputTypes := [⟨"UserWhereInput", .free, []⟩]
  modelInputTypes := []
  schemaEnums := []
  modelEnums := [⟨"UserWhereInputObject", ["ALL"]⟩]
  mappings := []

/-- Distinct names in a document are not enough: the enumeration and the input type of
`shadowedFilter` are both exported as `UserWhereInputObjectSchema`. -/
theorem exists_exportNames_not_nodup : ¬ ∀ (d : Document) (s : Settings) (workingDir output : Text)
    (ts : List Schema), d.DistinctNames → (d.models.map Model.name).Nodup →
      (d.mappings.map Mapping.model).Nodup → s.provider ≠ .mongodb →
      generate d s workingDir output = .ok ts → (ts.map Schema.exportName).Nodup := by
  intro h
  have hnames : shadowedFilter.DistinctNames := by
    constructor <;> decide
  have hrun : generate shadowedFilter .initial "/" "out" = .ok (shadowedFilter.resolved _) := rfl
  have hnodup := h _ _ _ _ _ hnames (by decide) (by decide) (by decide) hrun
  exact absurd hnodup (by decide)

end QueryValidator.Document
