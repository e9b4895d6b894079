import Mathlib.Data.List.Forall2
import QueryValidator.Proofs.Query.Lookups
import QueryValidator.Proofs.Run.Links
import QueryValidator.Proofs.Run.Resolved
import QueryValidator.Proofs.Zod.Expr

/-!
# What a run takes from its settings

Two runs of one document have the modules of the same declarations, whatever their settings are. A
setting shows in few places only: in the annotation of an object's module and its names, and in some
keys of an operation's arguments. `Schema.Agrees` says what is the same in the modules of one
declaration under two configurations, and `generate_agrees` that this holds all along two runs.
-/

namespace QueryValidator

/-! ### Configurations -/

/-- The configurations see the same names of a document; their settings are arbitrary. -/
structure Config.SameDocument (c c' : Config) : Prop where
  enumNames : c.enumNames = c'.enumNames
  rawOperations : c.rawOperations = c'.rawOperations

/-- The settings that show in the modules of objects are the same. -/
structure Config.SameObjects (c c' : Config) : Prop where
  clientImport : c.clientImport = c'.clientImport
  isDocumentStore : c.provider = .mongodb ↔ c'.provider = .mongodb

/-- The settings that show in the modules of operations are the same. -/
structure Config.SameOperations (c c' : Config) : Prop where
  select : c.select = c'.select
  includes : c.includes = c'.includes
  skipsDuplicates : c.provider.skipsDuplicates = c'.provider.skipsDuplicates
  searchesText : c.searchesText = c'.searchesText

/-- The keys of arguments that depend on settings. -/
def settingKeys : List Text := ["select", "include", "skipDuplicates", "orderBy"]

/-- The object without the fields of the given keys. -/
def Zod.Expr.withoutKeys (keys : List Text) : Expr → Expr
  | .object fs => .object (fs.filter fun f => !keys.contains f.1)
  | e => e

/-- What the modules of one declaration have in common under two configurations. -/
inductive Schema.Agrees (c c' : Config) : Schema → Schema → Prop
  | enumeration {t : Schema} : t.category = .enumeration → Agrees c c' t t
  | object {t t' : Schema} : t.category = .object → t'.category = .object →
      t.body = t'.body → t.imports = t'.imports →
      t.object.map Annotation.usesJson = t'.object.map Annotation.usesJson →
      (c.SameObjects c' → t = t') → Agrees c c' t t'
  | operation {t t' : Schema} : t.category = .operation → t'.category = .operation →
      t.stem = t'.stem → t.exportName = t'.exportName →
      t.body.withoutKeys settingKeys = t'.body.withoutKeys settingKeys →
      (c.SameOperations c' → t = t') → Agrees c c' t t'

variable {c c' : Config}

/-! ### Objects -/

theorem Config.SameDocument.sameLookups (h : c.SameDocument c') : c.SameLookups c' where
  isEnum _ := by rw [isEnum, isEnum, h.enumNames]
  rawOperations _ := by rw [h.rawOperations]

theorem InputObject.agrees (h : c.SameLookups c') (o : InputObject) :
    Schema.Agrees c c' (o.resolved c) (o.resolved c') := by
  refine .object rfl rfl ?_ ?_ rfl fun hsame => ?_
  · rw [resolved, resolved, h.entries_eq]
  · rw [resolved, resolved, h.imports_eq]
  · exact o.resolved_eq h hsame.clientImport hsame.isDocumentStore

/-! ### Operations -/

namespace Operation

/-- The arguments without those whose keys depend on settings. -/
def settled (arguments : ArgumentList) : ArgumentList :=
  arguments.filter fun a => !settingKeys.contains a.1

theorem settled_append (as bs : ArgumentList) : settled (as ++ bs) = settled as ++ settled bs :=
  List.filter_append _ _

theorem settled_offer {offered : Bool} {key : Text} {form : ArgumentForm} (h : key ∈ settingKeys) :
    settled (offer offered key form) = [] := by
  cases offered with
  | false => rfl
  | true => simp [settled, offer, argument, h]

@[simp] theorem settled_projection (c : Config) (model : Model) (isDeferred : Bool) :
    settled (projection c model isDeferred) = [] := by
  rw [projection, settled_append, settled_offer (by decide), settled_offer (by decide)]
  rfl

@[simp] theorem settled_ordering (c : Config) : settled (ordering c) = [] := by
  rfl

/-- Without the keys that depend on settings, the arguments are those of any settings. -/
theorem settled_arguments (c c' : Config) (op : Operation) (model : Model)
    (aggregates : List Aggregate) :
    settled (op.arguments c model aggregates) = settled (op.arguments c' model aggregates) := by
  cases op with
  | createMany =>
    -- the only operation with `skipDuplicates`
    simp only [arguments, settled_append]
    rw [settled_offer (by decide), settled_offer (by decide)]
  | findUnique | deleteOne | findFirst | findMany | createOne | updateOne | upsertOne
  | aggregate => simp only [arguments, settled_append, settled_projection, settled_ordering]
  | deleteMany | updateMany | groupBy =>
    -- these read no settings: `groupBy` has an order of its own
    rfl

theorem arguments_eq (h : c.SameOperations c') (op : Operation) (model : Model)
    (aggregates : List Aggregate) :
    op.arguments c model aggregates = op.arguments c' model aggregates := by
  have hprojection : ∀ isDeferred,
      projection c model isDeferred = projection c' model isDeferred := by
    intro isDeferred
    rw [projection, projection, h.select, h.includes]
  have hordering : ordering c = ordering c' := by
    rw [ordering, ordering, h.searchesText]
  cases op <;> simp only [arguments, hprojection, hordering, h.skipsDuplicates]

end Operation

theorem ModelOperation.agrees (c c' : Config) (o : ModelOperation) (inputNames : List Text) :
    Schema.Agrees c c' (o.resolved c inputNames) (o.resolved c' inputNames) := by
  refine .operation rfl rfl rfl rfl ?_ fun hsame => ?_
  · -- both bodies are made of arguments that no setting changes
    have hbody : ∀ config : Config, (o.resolved config inputNames).body.withoutKeys settingKeys =
        .object ((Operation.settled (o.operation.arguments config o.model
          (Aggregate.supported inputNames o.model.name))).map
            fun a => (a.1, a.2.expr o.model.name)) := by
      intro config
      rw [resolved, Zod.Expr.withoutKeys, List.filter_map]
      rfl
    rw [hbody, hbody, Operation.settled_arguments c c']
  · rw [resolved, resolved, Operation.arguments_eq hsame]

/-! ### Whole runs -/

namespace Document

variable {d : Document}

/-- The modules of the same declarations agree, in the order of the declarations. -/
theorem resolved_agrees (h : c.SameDocument c') :
    List.Forall₂ (Schema.Agrees c c') (d.resolved c) (d.resolved c') := by
  have hmap : ∀ {α : Type} (xs : List α) (f g : α → Schema),
      (∀ x, Schema.Agrees c c' (f x) (g x)) →
        List.Forall₂ (Schema.Agrees c c') (xs.map f) (xs.map g) := by
    intro α xs f g hfg
    rw [List.forall₂_map_left_iff, List.forall₂_map_right_iff, List.forall₂_same]
    exact fun x _ => hfg x
  rw [resolved, resolved]
  refine List.rel_append (List.rel_append ?enums ?objects) ?operations
  case enums => exact hmap _ _ _ fun e => .enumeration rfl
  case objects => exact hmap _ _ _ fun o => o.agrees h.sameLookups
  case operations => exact hmap _ _ _ fun o => o.agrees c c' d.inputNames

end Document

/-- **Runs with different settings**: whatever their settings, working directories and output
directories, two runs of a document succeed together or fail with the same violation, and the
modules of the one agree with those of the other, one by one. -/
theorem generate_agrees (d : Document) (s s' : Settings)
    (workingDir workingDir' output output' : Text) :
    ((∃ ts, generate d s workingDir output = .ok ts) ↔
      ∃ ts, generate d s' workingDir' output' = .ok ts) ∧
    (∀ v, generate d s workingDir output = .error v ↔
      generate d s' workingDir' output' = .error v) ∧
    ∀ ts ts', generate d s workingDir output = .ok ts →
      generate d s' workingDir' output' = .ok ts' →
        List.Forall₂ (Schema.Agrees (Config.ofRun s d workingDir output)
          (Config.ofRun s' d workingDir' output')) ts ts' := by
  refine ⟨?succeeds, ?fails, ?agrees⟩
  case succeeds =>
    exact (d.exists_schemas_iff_writable _).trans (d.exists_schemas_iff_writable _).symm
  case fails =>
    intro v
    exact Document.schemas_eq_error_iff.trans Document.schemas_eq_error_iff.symm
  case agrees =>
    intro ts ts' hts hts'
    rw [(Document.schemas_eq_ok_iff_resolved.mp hts).2,
      (Document.schemas_eq_ok_iff_resolved.mp hts').2]
    exact Document.resolved_agrees ⟨rfl, rfl⟩

/-- Two runs whose operations have different keys. -/
theorem blog_runs_agree : ∃ ts ts', generate .blog .initial "/" "out" = .ok ts ∧
    generate .blog { Settings.initial with provider := .mongodb, select := true } "/" "gen" =
      .ok ts' ∧
    (ts.map fun t => t.body.fields.length) = [0, 0, 0, 6] ∧
    (ts'.map fun t => t.body.fields.length) = [0, 0, 0, 7] ∧
    List.Forall₂ (Schema.Agrees (Config.ofRun .initial .blog "/" "out")
      (Config.ofRun { Settings.initial with provider := .mongodb, select := true } .blog "/"
        "gen")) ts ts' := by
  have hts : generate .blog .initial "/" "out" = .ok (Document.blog.resolved _) := rfl
  have hts' : generate .blog { Settings.initial with provider := .mongodb, select := true } "/"
      "gen" = .ok (Document.blog.resolved _) := rfl
  obtain ⟨-, -, hagree⟩ := generate_agrees .blog .initial
    { Settings.initial with provider := .mongodb, select := true } "/" "/" "out" "gen"
  exact ⟨_, _, hts, hts', rfl, rfl, hagree _ _ hts hts'⟩

end QueryValidator
