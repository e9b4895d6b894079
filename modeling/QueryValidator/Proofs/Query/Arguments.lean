import QueryValidator.Proofs.Name.Export
import QueryValidator.Proofs.Query.Aggregates
import QueryValidator.Proofs.Zod.References

/-!
# What the modules of operations declare

The arguments of an operation are read twice, as expressions and as imports. An expression refers to
the identifiers that its argument imports, in the same order, so the module of an operation imports
the identifiers of its expression and no others (`Operation.schema_declares`). Its keys are distinct
as those of the operation are with everything on offer, and the endings of the names keep what it
imports apart from what it exports.
-/

namespace QueryValidator

open Zod (Expr)

/-- The import of an input type of the model, or that of the enumeration of its scalar fields. The
category and the stem are those that the identifier is made of. -/
inductive Import.OfModel (model : Text) : Import → Prop
  | input (ending : Text) :
    OfModel model ⟨objectIdent (model ++ ending), .object, model ++ ending⟩
  | fieldNames :
    OfModel model ⟨enumIdent (model ++ ArgumentForm.fieldNamesEnding), .enumeration,
      model ++ ArgumentForm.fieldNamesEnding⟩

/-- The module of an operation of the model declares what it uses. -/
structure Schema.Declares (t : Schema) (model : Text) : Prop where
  /-- It imports each identifier that its expression refers to, in the order in which they first
  occur there, and nothing else. -/
  idents : t.imports.entries.map Import.ident = t.body.references.eraseDups
  /-- It imports an identifier from the module that the identifier is named for. -/
  imports : ∀ i ∈ t.imports.entries, i.OfModel model
  keys : ∃ fields, t.body = .object fields ∧ (fields.map Prod.fst).Nodup
  exported : ∀ i ∈ t.imports.entries, i.ident ≠ t.exportName

/-! ### Expressions and imports of arguments -/

namespace ArgumentForm

theorem references_expr (model : Text) (a : ArgumentForm) :
    (a.expr model).references = (a.imports model).map Import.ident := by
  induction a with
  | input ending => rfl
  | fieldNames => rfl
  | scalar s => rfl
  | list a ih => exact ih
  | optional a ih =>
    rw [expr, Expr.references_markOptional]
    exact ih
  | deferred a ih => exact ih
  | either a b iha ihb =>
    rw [expr, Expr.references_union, List.flatMap_cons, List.flatMap_singleton, iha, ihb, imports,
      List.map_append]

theorem ofModel_of_mem_imports {a : ArgumentForm} {model : Text} {i : Import}
    (h : i ∈ a.imports model) : i.OfModel model := by
  rcases mem_imports h with ⟨ending, rfl⟩ | rfl
  · exact .input ending
  · exact .fieldNames

end ArgumentForm

theorem ArgumentList.references_eq (arguments : ArgumentList) (model : Text) :
    (Expr.object (arguments.map fun (key, a) => (key, a.expr model))).references =
      (arguments.flatMap fun (_, a) => a.imports model).map Import.ident := by
  rw [Expr.references_object, List.flatMap_map, List.map_flatMap]
  exact congrArg (List.flatMap · arguments) (funext fun p => p.2.references_expr model)

/-- The enumeration of a model's fields and its objects are not named like an operation. -/
theorem Import.OfModel.ident_ne_operationIdent {i : Import} {model other : Text}
    (h : i.OfModel model) (op : Operation) : i.ident ≠ operationIdent other op.label := by
  cases h with
  | input ending => exact objectIdent_ne_operationIdent _ _ _
  | fieldNames =>
    have hends : ¬ ArgumentForm.fieldNamesEnding <:+ op.label ∧
        ¬ op.label <:+ ArgumentForm.fieldNamesEnding := by
      cases op <;> decide
    rw [ne_eq, enumIdent_eq_operationIdent_iff]
    exact Text.append_ne_append hends.1 hends.2 _ _

/-! ### Keys -/

namespace Operation

/-- The keys that the arguments may have, all of them if everything is on offer. -/
def keys : Operation → List Text
  | .findUnique => ["select", "include", "where"]
  | .findFirst => ["select", "include", "orderBy", "where", "cursor", "take", "skip", "distinct"]
  | .findMany => ["select", "include", "orderBy", "where", "cursor", "take", "skip", "distinct"]
  | .createOne => ["select", "include", "data"]
  | .createMany => ["data", "skipDuplicates"]
  | .deleteOne => ["select", "include", "where"]
  | .deleteMany => ["where"]
  | .updateOne => ["select", "include", "data", "where"]
  | .updateMany => ["data", "where"]
  | .upsertOne => ["select", "include", "where", "create", "update"]
  | .aggregate => ["orderBy", "where", "cursor", "take", "skip", "_count", "_min", "_max", "_avg",
      "_sum"]
  | .groupBy => ["where", "orderBy", "having", "take", "skip", "by"]

theorem keys_nodup (op : Operation) : op.keys.Nodup := by
  cases op <;> decide

theorem keys_offer_sublist (offered : Bool) (key : Text) (form : ArgumentForm) :
    ((offer offered key form).map Prod.fst).Sublist [key] := by
  cases offered
  · exact List.nil_sublist _
  · exact .refl _

theorem keys_projection_sublist (config : Config) (model : Model) (isDeferred : Bool) :
    ((projection config model isDeferred).map Prod.fst).Sublist ["select", "include"] := by
  rw [projection, List.map_append]
  exact (keys_offer_sublist _ _ _).append (keys_offer_sublist _ _ _)

theorem keys_sublist (op : Operation) (config : Config) (model : Model)
    {aggregates : List Aggregate} (h : aggregates.Sublist Aggregate.all) :
    ((op.arguments config model aggregates).map Prod.fst).Sublist op.keys := by
  have hprojected : ∀ (isDeferred : Bool) (rest : ArgumentList),
      ((projection config model isDeferred ++ rest).map Prod.fst).Sublist
        ("select".toList :: "include".toList :: rest.map Prod.fst) := by
    intro isDeferred rest
    rw [List.map_append]
    exact (keys_projection_sublist config model isDeferred).append (.refl _)
  cases op with
  | findUnique => exact hprojected _ _
  | findFirst =>
    rw [arguments, List.append_assoc, List.append_assoc]
    exact hprojected _ _
  | findMany =>
    rw [arguments, List.append_assoc, List.append_assoc]
    exact hprojected _ _
  | createOne => exact hprojected _ _
  | createMany =>
    rw [arguments, List.map_append]
    exact (List.Sublist.refl _).append (keys_offer_sublist _ _ _)
  | deleteOne => exact hprojected _ _
  | deleteMany => exact .refl _
  | updateOne => exact hprojected _ _
  | updateMany => exact .refl _
  | upsertOne => exact hprojected _ _
  | aggregate =>
    have hclauses := h.map Aggregate.clause
    rw [Aggregate.map_clause] at hclauses
    rw [keys_aggregate]
    exact (List.Sublist.refl aggregateKeys).append hclauses
  | groupBy => exact .refl _

/-! ### Modules -/

/-- The module of an operation imports the identifiers that its expression refers to. -/
theorem schema_declares {op : Operation} {config : Config} {model : Model}
    {aggregates : List Aggregate} {action : Text} {t : Schema}
    (h : op.schema config model aggregates action = .ok t)
    (haggregates : aggregates.Sublist Aggregate.all) : t.Declares model.name := by
  unfold schema at h
  split at h
  · cases h
  · cases h
    have hmodel : ∀ i ∈ (ImportList.empty.insertAll ((op.arguments config model aggregates).flatMap
        fun (_, a) => a.imports model.name)).entries, i.OfModel model.name := by
      intro i hi
      have hoffered := ImportList.mem_of_mem_insertAll_empty hi
      obtain ⟨argument, -, hargument⟩ := List.mem_flatMap.mp hoffered
      exact ArgumentForm.ofModel_of_mem_imports hargument
    refine ⟨?idents, hmodel, ⟨_, rfl, ?keys⟩, fun i hi => (hmodel i hi).ident_ne_operationIdent op⟩
    case idents =>
      rw [ImportList.map_ident_insertAll, ArgumentList.references_eq]
    case keys =>
      rw [List.map_map]
      exact (op.keys_nodup).sublist (op.keys_sublist config model haggregates)

end Operation

end QueryValidator
