import QueryValidator.Proofs.Name.ObjectNames
import QueryValidator.Proofs.Query.Aggregates
import QueryValidator.Proofs.Run.Resolved

/-!
# Aggregates of a run

The module of a model's aggregate has one clause for each aggregate whose input type the document
declares, and the clause leads to the module of that input type. The name of the input type is
written in three places, by the reading of the aggregates, by the clauses and by the modules of the
input types; `aggregate_hasClauses` says that they agree.
-/

namespace QueryValidator

/-- A clause of an aggregate's module: its key, and the kind by which the input type is named. -/
structure Clause where
  key : Text
  kind : Text
deriving DecidableEq, Repr

namespace Clause

/-- In the order in which a module has them. -/
def all : List Clause :=
  [⟨"_count", "Count"⟩, ⟨"_min", "Min"⟩, ⟨"_max", "Max"⟩, ⟨"_avg", "Avg"⟩, ⟨"_sum", "Sum"⟩]

def inputName (c : Clause) (model : Text) : Text :=
  model ++ c.kind ++ "AggregateInput"

end Clause

/-- The clause that an aggregate has. -/
def Aggregate.toClause (a : Aggregate) : Clause :=
  ⟨a.clause, a.label⟩

theorem Clause.all_eq_map : all = Aggregate.all.map Aggregate.toClause :=
  rfl

theorem Clause.inputName_toClause (a : Aggregate) (model : Text) :
    a.toClause.inputName model = model ++ a.inputEnding :=
  List.append_assoc model a.label "AggregateInput".toList

/-- After the arguments of a window, the module has the given clauses. Each uses the name that the
module of its input type exports, and this is imported from there. -/
structure Schema.HasClauses (t : Schema) (model : Text) (clauses : List Clause)
    (ts : List Schema) : Prop where
  keys : t.body.fields.map Prod.fst = Operation.aggregateKeys ++ clauses.map Clause.key
  clause : ∀ c ∈ clauses, ∃ e, (c.key, e) ∈ t.body.fields ∧
    ∃ o ∈ ts, o.category = .object ∧ o.stem = c.inputName model ∧
      (∀ ident, e.Uses ident ↔ ident = o.exportName) ∧
      ⟨o.exportName, .object, o.stem⟩ ∈ t.imports.entries

namespace Document

variable {d : Document} {ts : List Schema}

/-- The aggregates for which the document declares an input type of the model. -/
def declaredAggregates (d : Document) (model : Text) : List Aggregate :=
  Aggregate.all.filter fun a => d.inputNames.contains (model ++ a.inputEnding)

/-- The clauses whose input types the document declares for the model. -/
def declaredClauses (d : Document) (model : Text) : List Clause :=
  Clause.all.filter fun c => d.inputNames.contains (c.inputName model)

theorem declaredClauses_eq_map (d : Document) (model : Text) :
    d.declaredClauses model = (d.declaredAggregates model).map Aggregate.toClause := by
  rw [declaredClauses, declaredAggregates, Clause.all_eq_map, List.filter_map]
  refine congrArg _ (List.filter_congr fun a _ => ?_)
  rw [Function.comp_apply, Clause.inputName_toClause]

theorem mem_declaredAggregates {model : Text} {a : Aggregate} :
    a ∈ d.declaredAggregates model ↔ ∃ t ∈ d.inputTypes, t.name = model ++ a.inputEnding := by
  rw [declaredAggregates, List.mem_filter, List.contains_iff_mem, inputNames, List.mem_map]
  exact and_iff_right a.mem_all

/-- The input type of an aggregate is no raw operation, whatever its model is called. -/
theorem not_rawAlias_inputEnding {mappings : List Mapping} (model stem : Text) (a : Aggregate) :
    ¬ RawAlias mappings (model ++ a.inputEnding) stem := by
  have hends : ∀ before : Text, before ++ "Raw".toList ≠ model ++ a.inputEnding := by
    intro before
    rw [Aggregate.inputEnding, ← List.append_assoc]
    exact Text.append_ne_append (by decide) (by decide) _ _
  intro halias
  generalize hname : model ++ a.inputEnding = name at halias
  cases halias with
  | find => exact hends _ hname.symm
  | aggregate => exact hends _ hname.symm

/-- The module of an aggregate's input type is exported under the name that the clauses use. -/
theorem exists_aggregate_object {c : Config} (hd : d.Writable)
    (hraw : c.rawOperations = rawOperations d.mappings) {model : Text} {a : Aggregate}
    (ha : a ∈ d.declaredAggregates model) :
    ∃ o ∈ d.resolved c, o.category = .object ∧ o.stem = model ++ a.inputEnding ∧
      o.exportName = objectIdent (model ++ a.inputEnding) := by
  obtain ⟨t, ht, hname⟩ := mem_declaredAggregates.mp ha
  have hmem : (InputObject.ofInputType t).markRequired ∈ d.inputObjects := List.mem_map_of_mem ht
  have hkept : (InputObject.ofInputType t).markRequired.name = model ++ a.inputEnding := by
    rw [InputObject.markRequired_name]
    exact hname
  have hstem : (ObjectNames.ofName (model ++ a.inputEnding) c).stem =
      model ++ a.inputEnding :=
    ObjectNames.stem_of_no_alias hraw fun _ stem => not_rawAlias_inputEnding model stem a
  obtain ⟨o, ho, hschema⟩ :=
    exists_object_schema (schemas_eq_ok_iff_resolved.mpr ⟨hd, rfl⟩) hmem
  obtain ⟨-, hcategory, hostem, hoexport, -⟩ := InputObject.schema_names hschema
  rw [hkept] at hostem hoexport
  exact ⟨o, ho, hcategory, hostem.trans hstem, hoexport.trans (congrArg objectIdent hstem)⟩

/-- **Aggregates of a run**: the module of the aggregate that a mapping enables has, after the
arguments of a window, the clauses whose input types the document declares for the model, and each
leads to a module of the run. -/
theorem aggregate_hasClauses {s : Settings} {workingDir output : Text}
    (hrun : generate d s workingDir output = .ok ts) {m : Mapping} (hm : m ∈ d.mappings)
    {action : Text} (haction : m.action .aggregate = some action) :
    ∃ model t, findModel? d.models m.model = some model ∧ t ∈ ts ∧
      Operation.schema .aggregate (Config.ofRun s d workingDir output) model
        (Aggregate.supported d.inputNames model.name) action = .ok t ∧
      t.HasClauses m.model (d.declaredClauses m.model) ts := by
  obtain ⟨hd, rfl⟩ := schemas_eq_ok_iff_resolved.mp hrun
  obtain ⟨model, hmodel, ho⟩ := exists_operation hd hm haction
  have hname := name_of_findModel? hmodel
  -- a name without a model would be read as no aggregate's
  have hne : m.model ≠ [] := by
    intro hnil
    have hid := hd.modelName m hm ⟨_, by rw [haction]; simp⟩
    rw [hnil] at hid
    cases hid
  have hsupported : Aggregate.supported d.inputNames model.name =
      d.declaredAggregates m.model := by
    rw [hname]
    exact Aggregate.supported_eq hne
  have hschema := ModelOperation.schema_eq_ok (o := ⟨model, .aggregate, action⟩)
    (Config.ofRun s d workingDir output) d.inputNames (hd.actionName m hm _ _ haction)
  refine ⟨model, _, hmodel, List.mem_append_right _ (List.mem_map_of_mem ho), hschema, ?keys,
    ?clause⟩
  case keys =>
    rw [ModelOperation.resolved, Zod.Expr.fields, List.map_map, hsupported, declaredClauses_eq_map,
      List.map_map]
    exact Operation.keys_aggregate _ _ _
  case clause =>
    rw [declaredClauses_eq_map, List.forall_mem_map]
    intro a ha
    rw [Clause.inputName_toClause]
    obtain ⟨o, hmem, hcategory, hstem, hexport⟩ :=
      exists_aggregate_object (c := Config.ofRun s d workingDir output) hd rfl ha
    have hargument : Operation.aggregateClause a ∈ Operation.arguments .aggregate
        (Config.ofRun s d workingDir output) model
        (Aggregate.supported d.inputNames model.name) := by
      rw [hsupported]
      exact List.mem_append_right _ (List.mem_map_of_mem ha)
    refine ⟨(Operation.aggregateClause a).2.expr model.name,
      List.mem_map.mpr ⟨_, hargument, rfl⟩, o, hmem, hcategory, hstem, ?_, ?_⟩
    · intro ident
      rw [hexport, ← hname]
      exact Operation.aggregateClause_uses a
    · rw [hexport, hstem, ← hname]
      show _ ∈ (ImportList.empty.insertAll _).entries
      exact Operation.mem_imports_of_mem hargument (Operation.mem_aggregateClause_imports a _)

/-- A document with aggregates of `Post` and of `PostCount`; their input types are in no particular
order. -/
def counted : Document where
  models := [⟨"Post", []⟩, ⟨"PostCount", []⟩]
  inputTypes := [⟨"PostCountMaxAggregateInput", .free, []⟩, ⟨"PostMinAggregateInput", .free, []⟩,
    ⟨"PostCountAggregateInput", .free, []⟩]
  modelInputTypes := []
  schemaEnums := []
  modelEnums := []
  mappings := [
    ⟨"Post", fun op => if op = .aggregate then some "aggregatePost" else none, none, none⟩,
    ⟨"PostCount", fun op => if op = .aggregate then some "aggregatePostCount" else none, none,
      none⟩]

/-- The input types of `PostCount` are none of `Post`, whose own are listed in the order of their
clauses. -/
theorem counted_hasClauses : ∃ ts, generate counted .initial "/" "out" = .ok ts ∧
    ∃ t ∈ ts, t.stem = "aggregatePost".toList ∧
      t.HasClauses "Post" [⟨"_count", "Count"⟩, ⟨"_min", "Min"⟩] ts := by
  have hrun : generate counted .initial "/" "out" = .ok (counted.resolved _) := rfl
  have hdeclared : counted.declaredClauses "Post" = [⟨"_count", "Count"⟩, ⟨"_min", "Min"⟩] := by
    decide
  obtain ⟨model, t, -, ht, hschema, hclauses⟩ :=
    aggregate_hasClauses hrun List.mem_cons_self (rfl : _ = some "aggregatePost".toList)
  refine ⟨_, hrun, t, ht, (Operation.schema_names hschema).2.2.1, ?_⟩
  rw [← hdeclared]
  exact hclauses

end Document

end QueryValidator
