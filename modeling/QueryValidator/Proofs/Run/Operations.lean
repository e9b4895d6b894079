import Mathlib.Data.List.Forall2
import QueryValidator.Proofs.Name.ModelQuery
import QueryValidator.Proofs.Query.Arguments
import QueryValidator.Proofs.Run.Violations
import QueryValidator.Proofs.Text.Identifier

/-!
# The modules of a mapping

A mapping that can be written has one module for each operation that it enables, in the order of
`Operation.all`, and each module declares exactly what it uses (`Mapping.schemas_declare`). A field
that refers to the arguments of a query on a model leads to the module of that query
(`Mapping.findMany_referenced`).
-/

namespace QueryValidator

namespace Mapping

/-- The operations that the mapping enables. -/
def offered (m : Mapping) : List Operation :=
  Operation.all.filter fun op => (m.action op).isSome

theorem map_fst_enabled (m : Mapping) : m.enabled.map Prod.fst = m.offered := by
  rw [enabled, offered, List.map_filterMap, ← List.filterMap_eq_filter]
  refine List.filterMap_congr fun op _ => ?_
  cases haction : m.action op <;> simp [Option.guard, haction]

theorem mem_offered_of_action {m : Mapping} {op : Operation} {action : Text}
    (h : m.action op = some action) : op ∈ m.offered := by
  rw [← map_fst_enabled]
  exact List.mem_map_of_mem (mem_enabled.mpr h)

variable {m : Mapping} {config : Config} {models : List Model} {inputNames : List Text}
  {ts : List Schema}

/-- The modules are those of the operations that the mapping enables, one by one, on a model of the
name that it has. -/
theorem schemas_forall₂ (h : m.schemas config models inputNames = .ok ts) :
    List.Forall₂ (fun op t => ∃ model action, model.name = m.model ∧ m.action op = some action ∧
      op.schema config model (Aggregate.supported inputNames model.name) action = .ok t)
      m.offered ts := by
  rw [← map_fst_enabled, List.forall₂_map_left_iff]
  unfold schemas at h
  split at h
  · next hidle =>
    cases h
    rw [List.isEmpty_iff.mp hidle]
    exact .nil
  · cases hmodel : findModel? models m.model with
    | none =>
      rw [hmodel] at h
      cases h
    | some model =>
      simp only [hmodel] at h
      split at h
      · cases h
      · have hsteps := Except.mapM_eq_ok_iff.mp h
        rw [← List.forall₂_eq_eq_eq, List.forall₂_map_left_iff,
          List.forall₂_map_right_iff] at hsteps
        have hactions : ∀ p ∈ m.enabled, m.action p.1 = some p.2 := fun _ hp => mem_enabled.mp hp
        refine ((List.forall₂_and_left _ _).mpr ⟨hactions, hsteps⟩).imp fun p t ⟨haction, ht⟩ => ?_
        exact ⟨model, p.2, name_of_findModel? hmodel, haction, ht⟩

/-- Each operation that the mapping enables has its module. -/
theorem exists_schema_of_action (h : m.schemas config models inputNames = .ok ts) {op : Operation}
    {action : Text} (haction : m.action op = some action) :
    ∃ model t, (op, t) ∈ m.offered.zip ts ∧ model.name = m.model ∧
      op.schema config model (Aggregate.supported inputNames model.name) action = .ok t := by
  obtain ⟨hlength, hpairs⟩ := List.forall₂_iff_zip.mp (schemas_forall₂ h)
  obtain ⟨i, hi, hget⟩ := List.getElem_of_mem (mem_offered_of_action haction)
  have hmem : (op, ts[i]) ∈ m.offered.zip ts := by
    rw [← hget, ← List.getElem_zip (h := by simp [← hlength, hi])]
    exact List.getElem_mem _
  obtain ⟨model, action', hname, haction', ht⟩ := hpairs hmem
  cases haction.symm.trans haction'
  exact ⟨model, _, hmem, hname, ht⟩

/-- **Modules of operations declare what they use**: the modules of a mapping are those of the
operations that it enables, in their order, under the names of their actions and exports. Each
imports what its expression refers to and nothing else, has distinct keys, and does not import its
own name. -/
theorem schemas_declare (h : m.schemas config models inputNames = .ok ts) :
    List.Forall₂ (fun op t => m.action op = some t.stem ∧ t.category = .operation ∧
      t.exportName = Text.capitalized m.model ++ op.label ++ "Schema" ∧ t.Declares m.model)
      m.offered ts := by
  refine (schemas_forall₂ h).imp fun op t ⟨model, action, hname, haction, ht⟩ => ?_
  obtain ⟨-, hcategory, rfl, hexport⟩ := Operation.schema_names ht
  refine ⟨haction, hcategory, ?exportName, hname ▸ Operation.schema_declares ht ?supported⟩
  case exportName => rw [hexport, operationIdent, op.capitalized_label, hname]
  case supported => exact List.filter_sublist

/-- A mapping that enables operations of each kind of arguments. -/
def posts : Mapping where
  model := "Post"
  action
    | .findMany => some "findManyPost"
    | .createMany => some "createManyPost"
    | .upsertOne => some "upsertOnePost"
    | .aggregate => some "aggregatePost"
    | _ => none
  findRaw := none
  aggregateRaw := none

/-- The model of the mapping, which points at another model. -/
def postModel : Model := ⟨"Post", [⟨"author", .object, false, true, "User"⟩]⟩

/-- The create input of the posts occurs twice in the second module, which imports it once. -/
theorem posts_declare : ∃ ts,
    posts.schemas { Config.initial with select := true, includes := true } [postModel]
      ["PostCountAggregateInput"] = .ok ts ∧
    ts.map (fun t => t.imports.entries.length) = [6, 1, 7, 4] ∧
    List.Forall₂ (fun op t => posts.action op = some t.stem ∧ t.category = .operation ∧
      t.exportName = Text.capitalized posts.model ++ op.label ++ "Schema" ∧ t.Declares "Post")
      [.findMany, .createMany, .upsertOne, .aggregate] ts := by
  have hrun : ∃ ts,
      posts.schemas { Config.initial with select := true, includes := true } [postModel]
        ["PostCountAggregateInput"] = .ok ts ∧
      ts.map (fun t => t.imports.entries.length) = [6, 1, 7, 4] := ⟨_, rfl, rfl⟩
  obtain ⟨ts, hts, himports⟩ := hrun
  exact ⟨ts, hts, himports, schemas_declare hts⟩

/-- A mapping of a model of the data model can be written if the actions of its operations can. -/
theorem exists_schemas_iff {model : Model} (hmodel : model ∈ models) (hname : m.model = model.name)
    (hid : Text.isIdentifier model.name = true) :
    (∃ ts, m.schemas config models inputNames = .ok ts) ↔
      ∀ op action, m.action op = some action → Text.isIdentifier action = true := by
  rw [← Except.error?_eq_none_iff, error?_schemas, List.head?_eq_none_iff, violations_eq_nil_iff]
  exact and_iff_right fun _ => ⟨⟨model, hmodel, hname.symm⟩, hname ▸ hid⟩

/-- **References to query arguments meet the module of the query**: a name is read as that of query
arguments if the mark occurs in it, and the model is then the shortest text that the mark stands
behind. So if the mark does not occur in the name of a model, any name that goes on from the model's
query arguments is a reference to the module of that query, under the names that this module has. -/
theorem findMany_referenced :
    (∀ name, ((ModelQuery.ofName? name).isSome = true ↔ ModelQuery.findManyMark <:+: name) ∧
      ∀ q, ModelQuery.ofName? name = some q → q.model ++ ModelQuery.findManyMark <+: name ∧
        ∀ front, front ++ ModelQuery.findManyMark <+: name → q.model.length ≤ front.length) ∧
    ∀ (models : List Model) (model : Model), model ∈ models →
      Text.isIdentifier model.name = true → ¬ ModelQuery.findManyMark <:+: model.name →
      ∀ (config : Config) (inputNames : List Text) (m : Mapping), m.model = model.name →
      m.action .findMany = some ("findMany" ++ model.name) →
      ((∃ ts, m.schemas config models inputNames = .ok ts) ↔
        ∀ op action, op ≠ .findMany → m.action op = some action →
          Text.isIdentifier action = true) ∧
      ∀ ts, m.schemas config models inputNames = .ok ts →
        ∃ t, (Operation.findMany, t) ∈ m.offered.zip ts ∧
          ∀ (tail : Text) (isEnum : Bool) (owner : Text),
            let r := Reference.ofName (model.name ++ ModelQuery.findManyMark ++ tail) isEnum owner
            r.ident = t.exportName ∧ r.imported = some ⟨t.exportName, .operation, t.stem⟩ := by
  refine ⟨fun name => ⟨ModelQuery.isSome_ofName?_iff, fun q => ModelQuery.first_of_ofName?⟩, ?_⟩
  intro models model hmodel hid hmark config inputNames m hname haction
  constructor
  · rw [exists_schemas_iff hmodel hname hid]
    refine ⟨fun h op action _ => h op action, fun h op action hop => ?_⟩
    by_cases hfind : op = .findMany
    · rw [hfind, haction] at hop
      cases hop
      exact Text.isIdentifier_append (by decide) (Text.all_part hid)
    · exact h op action hfind hop
  · intro ts hts
    obtain ⟨other, t, ht, hother, hschema⟩ := exists_schema_of_action hts haction
    obtain ⟨-, -, hstem, hexport⟩ := Operation.schema_names hschema
    refine ⟨t, ht, fun tail isEnum owner => ?_⟩
    have hquery := ModelQuery.ofName?_append
      (Bool.eq_false_iff.mpr fun hocc => hmark (Text.occursIn_iff.mp hocc)) tail
    rw [Reference.ofName_of_query hquery, ModelQuery.toOperation_findMany, hstem, hexport, hother,
      hname]
    exact ⟨rfl, rfl⟩

/-- The mark is found before the ending of a relation filter. -/
theorem posts_referenced : ∃ ts, posts.schemas .initial [postModel] [] = .ok ts ∧
    ∃ t, (Operation.findMany, t) ∈ posts.offered.zip ts ∧
      (Reference.ofName "PostFindManyArgsRelationFilter" true "PostWhereInput").imported =
        some ⟨t.exportName, .operation, t.stem⟩ := by
  obtain ⟨hwritten, hreferenced⟩ := findMany_referenced.2 [postModel] postModel
    (List.mem_singleton_self _) (by decide) (by decide) .initial [] posts rfl rfl
  have hactions : ∀ op action, op ≠ .findMany → posts.action op = some action →
      Text.isIdentifier action = true := by
    intro op action _ haction
    cases op <;> cases haction <;> decide
  obtain ⟨ts, hts⟩ := hwritten.mpr hactions
  obtain ⟨t, ht, hr⟩ := hreferenced ts hts
  exact ⟨ts, hts, t, ht, (hr "RelationFilter" true "PostWhereInput").2⟩

end Mapping

end QueryValidator
