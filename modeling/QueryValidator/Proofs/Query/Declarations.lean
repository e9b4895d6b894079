import QueryValidator.Proofs.Module.Declarations
import QueryValidator.Proofs.Name.Reference
import QueryValidator.Proofs.Query.Alternatives
import QueryValidator.Proofs.Text.Identifier

/-!
# Scope of the modules of input types

The expression of an input type uses the identifiers of the references that its fields offer, and
that of the JSON validator if a field offers JSON. A reference is imported unless its name is the
name of the input type; the names of constants are not looked at, nor whether the reference leads to
an object or to an enumeration. `wellScoped_iff` says for which input types each identifier used is
declared exactly once nevertheless.
-/

namespace QueryValidator

open Zod (Expr jsonIdent)

/-! ### Atoms of a field -/

namespace Candidate

/-- The validator of the candidate has the atom in it: the candidate's reference or its scalar
validator. -/
def HasAtom (config : Config) (owner : Text) (c : Candidate) (x : Expr) : Prop :=
  (∃ r, c.referenceFrom? config owner = some r ∧ x = .ref r.ident) ∨
    ∃ k, c.kind = .scalar k ∧ x = .scalar k.validator

variable {config : Config} {owner : Text} {c : Candidate} {b x : Expr}

theorem occursIn_listed (hx : x.IsAtom) {e : Expr} : x.OccursIn (c.listed e) ↔ x.OccursIn e := by
  unfold listed
  split
  · cases hx <;> simp
  · rfl

theorem Branch.occursIn_iff (hx : x.IsAtom) (h : Branch config owner c b) :
    x.OccursIn b ↔ c.HasAtom config owner x := by
  cases h with
  | scalar hk =>
    rw [occursIn_listed hx]
    simp [HasAtom, referenceFrom?, reference?, hk]
  | enumeration hk =>
    rw [occursIn_listed hx]
    cases hx <;> simp [HasAtom, referenceFrom?, reference?, isEnum, hk]
  | object hk hr =>
    have hcast : ∀ (e : Expr) (target : Text), x.OccursIn (.cast e target) ↔ x.OccursIn e := by
      cases hx <;> simp
    rw [hcast, occursIn_listed hx]
    cases hx <;> simp [HasAtom, referenceFrom?, reference?, isEnum, hk, hr]

end Candidate

namespace InputField

variable {config : Config} {owner : Text} {f : InputField} {x : Expr}

theorem occursIn_marked (hx : x.IsAtom) {several : Bool} {e : Expr} :
    x.OccursIn (f.marked several e) ↔ x.OccursIn e := by
  simp only [marked]
  split <;> split <;> cases hx <;> simp

theorem occursIn_typed (hx : x.IsAtom) {e : Expr} : x.OccursIn (f.typed e) ↔ x.OccursIn e := by
  unfold typed
  split
  · cases hx <;> simp
  · rfl

theorem occursIn_assembled (hx : x.IsAtom) {bs : List Expr} :
    x.OccursIn (f.assembled bs) ↔ ∃ b ∈ bs, x.OccursIn b := by
  have hunion : ∀ es : List Expr, x.OccursIn (f.typed (f.marked true (.union es))) ↔
      ∃ b ∈ es, x.OccursIn b := by
    intro es
    rw [occursIn_typed hx, occursIn_marked hx]
    cases hx <;> simp
  match bs with
  | [] => exact hunion []
  | [b] =>
    rw [assembled, occursIn_marked hx]
    simp
  | b :: b' :: bs => exact hunion (b :: b' :: bs)

theorem exists_occursIn_iff (hx : x.IsAtom) {cs : List Candidate} {bs : List Expr}
    (h : List.Forall₂ (Candidate.Branch config owner) cs bs) :
    (∃ b ∈ bs, x.OccursIn b) ↔ ∃ c ∈ cs, c.HasAtom config owner x := by
  induction h with
  | nil => simp
  | cons hb _ ih => simp [hb.occursIn_iff hx, ih]

/-- The entry of a field has the atoms of the candidates that the field offers. -/
theorem entry_occursIn_iff (hx : x.IsAtom) :
    (∃ p, f.entry? config owner = some p ∧ x.OccursIn p.2) ↔
      ∃ c ∈ f.offered, c.HasAtom config owner x := by
  constructor
  · rintro ⟨p, hp, hoccurs⟩
    obtain ⟨e, he, rfl⟩ := Option.map_eq_some_iff.mp hp
    obtain ⟨bs, hbs, -, rfl⟩ := exists_branches_of_validator he
    exact (exists_occursIn_iff hx hbs).mp ((occursIn_assembled hx).mp hoccurs)
  · rintro ⟨c, hc, hatom⟩
    have hbs := forall₂_kept config owner f
    have he := validator_eq_some hbs (List.ne_nil_of_mem hc)
    refine ⟨_, Option.map_eq_some_iff.mpr ⟨_, he, rfl⟩, ?_⟩
    exact (occursIn_assembled hx).mpr ((exists_occursIn_iff hx hbs).mpr ⟨c, hc, hatom⟩)

end InputField

namespace InputObject

variable {o : InputObject} {config : Config} {ident : Text}

/-! ### Identifiers of an input type -/

/-- The candidates that the fields offer. -/
def offers (o : InputObject) : List Candidate :=
  o.fields.flatMap InputField.offered

/-- The references that the fields offer. -/
def references (o : InputObject) (config : Config) : List Reference :=
  o.offers.filterMap fun c => c.referenceFrom? config o.name

theorem mem_references {r : Reference} :
    r ∈ o.references config ↔ ∃ c ∈ o.offers, c.referenceFrom? config o.name = some r :=
  List.mem_filterMap

/-- The expression of the input type has the atoms of the candidates that its fields offer. -/
theorem occursIn_resolved_iff {x : Expr} (hx : x.IsAtom) :
    x.OccursIn (o.resolved config).body ↔ ∃ c ∈ o.offers, c.HasAtom config o.name x := by
  have hbody : x.OccursIn (o.resolved config).body ↔
      ∃ p ∈ o.fields.filterMap fun f => f.entry? config o.name, x.OccursIn p.2 := by
    rw [resolved]
    cases hx <;> simp
  rw [hbody]
  constructor
  · rintro ⟨p, hp, hoccurs⟩
    obtain ⟨f, hf, hentry⟩ := List.mem_filterMap.mp hp
    obtain ⟨c, hc, hatom⟩ := (InputField.entry_occursIn_iff hx).mp ⟨p, hentry, hoccurs⟩
    exact ⟨c, List.mem_flatMap.mpr ⟨f, hf, hc⟩, hatom⟩
  · rintro ⟨c, hc, hatom⟩
    obtain ⟨f, hf, hcf⟩ := List.mem_flatMap.mp hc
    obtain ⟨p, hentry, hoccurs⟩ := (InputField.entry_occursIn_iff hx).mpr ⟨c, hcf, hatom⟩
    exact ⟨p, List.mem_filterMap.mpr ⟨f, hf, hentry⟩, hoccurs⟩

theorem ref_occursIn_resolved_iff :
    (Expr.ref ident).OccursIn (o.resolved config).body ↔
      ∃ r ∈ o.references config, ident = r.ident := by
  rw [occursIn_resolved_iff (.ref ident)]
  simp only [Candidate.HasAtom, Expr.ref.injEq, reduceCtorEq, and_false, exists_false, or_false,
    mem_references]
  exact ⟨fun ⟨c, hc, r, hr, hident⟩ => ⟨r, ⟨c, hc, hr⟩, hident⟩,
    fun ⟨r, ⟨c, hc, hr⟩, hident⟩ => ⟨c, hc, r, hr, hident⟩⟩

theorem json_occursIn_resolved_iff :
    (Expr.scalar .json).OccursIn (o.resolved config).body ↔ ∃ c ∈ o.offers, c.isJson = true := by
  have hjson : ∀ k : ScalarKind, .json = k.validator ↔ k = .json := by
    intro k
    cases k <;> decide
  rw [occursIn_resolved_iff (.scalar .json)]
  simp [Candidate.HasAtom, Candidate.isJson, hjson]

/-- The expression of the input type uses the identifiers of its references and, if a field offers
it, that of the JSON validator. -/
theorem uses_resolved :
    (o.resolved config).body.Uses ident ↔
      (∃ r ∈ o.references config, ident = r.ident) ∨
        (∃ c ∈ o.offers, c.isJson = true) ∧ ident = jsonIdent := by
  rw [Expr.Uses, ref_occursIn_resolved_iff, json_occursIn_resolved_iff, and_comm (a := ident = _)]

/-- The module imports the reference of every candidate, whether a field offers it or not. -/
theorem imports_contains_iff :
    (o.resolved config).imports.contains ident = true ↔
      ident ∈ (o.imports config).map Import.ident := by
  rw [resolved, ImportList.contains_insertAll_empty, List.mem_map]

theorem mem_imports_of_reference {r : Reference} {i : Import} (hr : r ∈ o.references config)
    (hi : r.imported = some i) : i ∈ o.imports config := by
  obtain ⟨c, hc, hcr⟩ := mem_references.mp hr
  obtain ⟨f, hf, hcf⟩ := List.mem_flatMap.mp hc
  have hfc := f.offered_subset hcf
  refine List.mem_flatMap.mpr ⟨f, hf, List.mem_filterMap.mpr ⟨c, hfc, ?_⟩⟩
  rw [Candidate.import?, hcr]
  exact hi

theorem usesJson_of_offers {c : Candidate} (hc : c ∈ o.offers) (hjson : c.isJson = true) :
    o.usesJson = true := by
  obtain ⟨f, hf, hcf⟩ := List.mem_flatMap.mp hc
  have hfield : f.usesJson = true := List.any_eq_true.mpr ⟨c, f.offered_subset hcf, hjson⟩
  exact List.any_eq_true.mpr ⟨f, hf, hfield⟩

/-! ### Names of constants -/

/-- The name of an enumeration whose schema has the name of a constant. -/
def HidesEnum (o : InputObject) (config : Config) (name : Text) : Prop :=
  name = (ObjectNames.ofName o.name config).stem ++ "Object" ∨
    o.usesJson = true ∧ (name = ("literal" : Text) ∨ name = ("json" : Text))

instance (name : Text) : Decidable (o.HidesEnum config name) :=
  inferInstanceAs (Decidable (_ ∨ _ ∧ (_ ∨ _)))

theorem objectIdent_not_helper (name : Text) : objectIdent name ∉ helperIdents := by
  have hends : ∀ t ∈ helperIdents, ¬ "ObjectSchema".toList <:+ t := by decide
  exact fun h => hends _ h (List.suffix_append _ _)

theorem suffix_queryIdent {raw : Text} {q : ModelQuery} (hq : ModelQuery.ofName? raw = some q) :
    "ManySchema".toList <:+ q.ident := by
  obtain ⟨⟨model, rest⟩, -, rfl⟩ := Option.map_eq_some_iff.mp hq
  exact ⟨Text.capitalized model ++ "Find", by simp [ModelQuery.ident, operationIdent]; rfl⟩

theorem constants_resolved_nodup : (o.resolved config).constants.Nodup :=
  Schema.constants_nodup (objectIdent_not_helper _)

theorem objectIdent_mem_constants_iff {name : Text} :
    objectIdent name ∈ (o.resolved config).constants ↔
      name = (ObjectNames.ofName o.name config).stem := by
  rw [Schema.mem_constants_of_not_helper (objectIdent_not_helper name)]
  exact objectIdent_inj

theorem queryIdent_not_mem_constants {raw : Text} {q : ModelQuery}
    (hq : ModelQuery.ofName? raw = some q) : q.ident ∉ (o.resolved config).constants := by
  have hends : ∀ t ∈ helperIdents, ¬ "ManySchema".toList <:+ t := by decide
  rw [Schema.mem_constants_of_not_helper fun h => hends _ h (suffix_queryIdent hq)]
  intro heq
  have hobject : "ObjectSchema".toList <:+ q.ident := heq ▸ List.suffix_append _ _
  rcases List.suffix_or_suffix_of_suffix (suffix_queryIdent hq) hobject with h | h
  · exact absurd h (by decide)
  · exact absurd h (by decide)

theorem enumIdent_mem_constants_iff {name : Text} :
    enumIdent name ∈ (o.resolved config).constants ↔ name = [] ∨ o.HidesEnum config name := by
  have hexport : (o.resolved config).exportName =
      enumIdent ((ObjectNames.ofName o.name config).stem ++ "Object") :=
    objectIdent_eq_enumIdent _
  have hliteral : literalIdent = enumIdent "literal" := rfl
  have hjson : jsonIdent = enumIdent "json" := rfl
  have hannotated : annotatedIdent = enumIdent [] := rfl
  rw [Schema.constants, hexport, List.mem_append, List.mem_singleton, enumIdent_inj, HidesEnum]
  cases hused : o.usesJson with
  | false => simp [resolved, Annotation.constants, hused, hannotated, enumIdent_inj]
  | true =>
    simp [resolved, Annotation.constants, hused, helperIdents, hliteral, hjson, hannotated,
      enumIdent_inj, or_assoc, or_comm]

/-! ### Declarations of each kind of reference -/

/-- What the fields of an input type refer to. -/
theorem references_cases {r : Reference} (hr : r ∈ o.references config) :
    (∃ raw q, ModelQuery.ofName? raw = some q ∧ r = .toOperation q raw) ∨
      ∃ name, r = .toEnum name o.name ∨ r = .toObject name o.name := by
  obtain ⟨c, -, hcr⟩ := mem_references.mp hr
  obtain ⟨raw, -, rfl⟩ := Option.map_eq_some_iff.mp hcr
  rcases Reference.ofName_cases raw (c.isEnum config) o.name with ⟨q, hq, heq⟩ | heq
  · exact Or.inl ⟨raw, q, hq, heq⟩
  · exact Or.inr ⟨whereInputOf raw, heq⟩

theorem typeName_ne_nil (h : ∀ f ∈ o.fields, f.violation? o.name = none) {r : Reference}
    (hr : r ∈ o.references config) : r.typeName ≠ [] := by
  obtain ⟨c, hc, hcr⟩ := mem_references.mp hr
  obtain ⟨raw, hraw, rfl⟩ := Option.map_eq_some_iff.mp hcr
  obtain ⟨f, hf, hcf⟩ := List.mem_flatMap.mp hc
  have hwritable := (InputField.violation?_eq_none_iff.mp (h f hf)).2 c (f.offered_subset hcf)
  have hid : Text.isIdentifier raw = true := by
    simpa [Candidate.isWritable, hraw] using hwritable
  exact Reference.typeName_ofName_ne_nil (Text.ne_nil_of_isIdentifier hid)

theorem count_declared_iff :
    (o.resolved config).declared.count ident = 1 ↔
      (ident ∈ (o.imports config).map Import.ident ↔
        ident ∉ (o.resolved config).constants) := by
  rw [Schema.count_declared_eq_one_iff constants_resolved_nodup, imports_contains_iff]

theorem count_imported_iff {r : Reference} {i : Import} (hr : r ∈ o.references config)
    (hi : r.imported = some i) :
    (o.resolved config).declared.count i.ident = 1 ↔
      i.ident ∉ (o.resolved config).constants := by
  have himported : i.ident ∈ (o.imports config).map Import.ident :=
    List.mem_map_of_mem (mem_imports_of_reference hr hi)
  rw [count_declared_iff]
  exact ⟨fun h => h.mp himported, fun h => iff_of_true himported h⟩

/-- The schema of an operation is always imported, and no constant has its name. -/
theorem count_query {raw : Text} {q : ModelQuery} (hq : ModelQuery.ofName? raw = some q)
    (hr : .toOperation q raw ∈ o.references config) :
    (o.resolved config).declared.count q.ident = 1 :=
  (count_imported_iff hr rfl).mpr (queryIdent_not_mem_constants hq)

theorem count_otherEnum_iff {name : Text} (hname : name ≠ []) (hother : name ≠ o.name)
    (hr : .toEnum name o.name ∈ o.references config) :
    (o.resolved config).declared.count (enumIdent name) = 1 ↔ ¬ o.HidesEnum config name := by
  have hcount := count_imported_iff hr (if_neg hother)
  rwa [enumIdent_mem_constants_iff, or_iff_right hname] at hcount

theorem count_otherObject_iff {name : Text} (hother : name ≠ o.name)
    (hr : .toObject name o.name ∈ o.references config) :
    (o.resolved config).declared.count (objectIdent name) = 1 ↔
      name ≠ (ObjectNames.ofName o.name config).stem := by
  have hcount := count_imported_iff hr (if_neg hother)
  rwa [objectIdent_mem_constants_iff] at hcount

/-- The name of the input type is not imported for a reference to an enumeration of that name. -/
theorem count_ownEnum_iff (hname : o.name ≠ []) :
    (o.resolved config).declared.count (enumIdent o.name) = 1 ↔
      (enumIdent o.name ∈ (o.imports config).map Import.ident ↔ ¬ o.HidesEnum config o.name) := by
  rw [count_declared_iff, enumIdent_mem_constants_iff, or_iff_right hname]

theorem count_ownObject_iff :
    (o.resolved config).declared.count (objectIdent o.name) = 1 ↔
      (objectIdent o.name ∈ (o.imports config).map Import.ident ↔
        (ObjectNames.ofName o.name config).stem ≠ o.name) := by
  rw [count_declared_iff, objectIdent_mem_constants_iff, eq_comm]

theorem count_json_iff {c : Candidate} (hc : c ∈ o.offers) (hjson : c.isJson = true) :
    (o.resolved config).declared.count jsonIdent = 1 ↔
      jsonIdent ∉ (o.imports config).map Import.ident := by
  have hhides : o.HidesEnum config "json" := Or.inr ⟨usesJson_of_offers hc hjson, Or.inr rfl⟩
  have hconstant : jsonIdent ∈ (o.resolved config).constants :=
    enumIdent_mem_constants_iff.mpr (Or.inr hhides)
  rw [count_declared_iff]
  exact ⟨fun h hi => h.mp hi hconstant, fun h => iff_of_false h (not_not.mpr hconstant)⟩

/-! ### Well scoped input types -/

/-- No name is declared twice or not at all. Other enumerations and objects are imported, so none of
them may have the name of a constant. What has the name of the input type itself is not imported, so
it has to have the name of a constant or of another import. -/
structure Unclashed (o : InputObject) (config : Config) : Prop where
  otherEnum : ∀ name, name ≠ o.name → .toEnum name o.name ∈ o.references config →
    ¬ o.HidesEnum config name
  otherObject : ∀ name, name ≠ o.name → .toObject name o.name ∈ o.references config →
    name ≠ (ObjectNames.ofName o.name config).stem
  ownEnum : .toEnum o.name o.name ∈ o.references config →
    (enumIdent o.name ∈ (o.imports config).map Import.ident ↔ ¬ o.HidesEnum config o.name)
  ownObject : .toObject o.name o.name ∈ o.references config →
    (objectIdent o.name ∈ (o.imports config).map Import.ident ↔
      (ObjectNames.ofName o.name config).stem ≠ o.name)
  /-- The JSON validator is a constant. -/
  json : ∀ c ∈ o.offers, c.isJson = true → jsonIdent ∉ (o.imports config).map Import.ident

/-- **Scope of an input type's module**: each identifier that the expression of the module uses is
declared by exactly one of its imports and constants if and only if the names of the input type do
not clash. -/
theorem wellScoped_iff {t : Schema} (h : o.schema config = .ok t) :
    t.WellScoped ↔ o.Unclashed config := by
  obtain ⟨⟨hid, hfields⟩, rfl⟩ := schema_eq_ok_iff.mp h
  have hname : o.name ≠ [] := Text.ne_nil_of_isIdentifier hid
  constructor
  · intro hscoped
    have hcount : ∀ r ∈ o.references config, (o.resolved config).declared.count r.ident = 1 :=
      fun r hr => hscoped r.ident (uses_resolved.mpr (Or.inl ⟨r, hr, rfl⟩))
    constructor
    case otherEnum =>
      exact fun name hother hr =>
        (count_otherEnum_iff (typeName_ne_nil hfields hr) hother hr).mp (hcount _ hr)
    case otherObject =>
      exact fun name hother hr => (count_otherObject_iff hother hr).mp (hcount _ hr)
    case ownEnum => exact fun hr => (count_ownEnum_iff hname).mp (hcount _ hr)
    case ownObject => exact fun hr => count_ownObject_iff.mp (hcount _ hr)
    case json =>
      intro c hc hjson
      have huse : (o.resolved config).body.Uses jsonIdent :=
        uses_resolved.mpr (Or.inr ⟨⟨c, hc, hjson⟩, rfl⟩)
      exact (count_json_iff hc hjson).mp (hscoped _ huse)
  · intro hclear ident huse
    rcases uses_resolved.mp huse with ⟨r, hr, rfl⟩ | ⟨⟨c, hc, hjson⟩, rfl⟩
    · rcases references_cases hr with ⟨raw, q, hq, rfl⟩ | ⟨name, rfl | rfl⟩
      · exact count_query hq hr
      · -- a reference to the type's own name is not imported
        by_cases hown : name = o.name
        · subst hown
          exact (count_ownEnum_iff hname).mpr (hclear.ownEnum hr)
        · exact (count_otherEnum_iff (typeName_ne_nil hfields hr) hown hr).mpr
            (hclear.otherEnum name hown hr)
      · by_cases hown : name = o.name
        · subst hown
          exact count_ownObject_iff.mpr (hclear.ownObject hr)
        · exact (count_otherObject_iff hown hr).mpr (hclear.otherObject name hown hr)
    · exact (count_json_iff hc hjson).mpr (hclear.json c hc hjson)

/-- The filter of posts: by their status, their author and their data, and filters themselves. -/
def postFilter : InputObject where
  name := "PostWhereInput"
  fields := [
    ⟨"AND", false, false, [⟨.object "PostWhereInput" .generated, true⟩]⟩,
    ⟨"status", false, false, [⟨.enumeration "Status" .library, false⟩]⟩,
    ⟨"author", false, true, [⟨.object "UserRelationFilter" .generated, false⟩]⟩,
    ⟨"data", false, true, [⟨.scalar .json, false⟩]⟩]
  constraints := .free

theorem postFilter_wellScoped :
    postFilter.schema .initial = .ok (postFilter.resolved .initial) ∧
      (postFilter.resolved .initial).WellScoped := by
  have hschema : postFilter.schema .initial = .ok (postFilter.resolved .initial) := rfl
  have hnames : (postFilter.references .initial).map Reference.typeName =
      ["PostWhereInput", "Status", "UserWhereInput"] := by decide
  have himports : (postFilter.imports .initial).map Import.ident =
      ["StatusSchema", "UserWhereInputObjectSchema"] := by decide
  refine ⟨hschema, (wellScoped_iff hschema).mpr ?_⟩
  constructor
  case otherEnum =>
    have hfree : ∀ name ∈ (postFilter.references .initial).map Reference.typeName,
        ¬ postFilter.HidesEnum .initial name := by
      rw [hnames]
      decide
    exact fun name _ hr => hfree name (List.mem_map_of_mem (f := Reference.typeName) hr)
  case otherObject => exact fun name hne _ => hne
  case ownEnum => exact fun hr => absurd hr (by decide)
  case ownObject =>
    rw [himports]
    exact fun _ => iff_of_false (by decide) (by decide)
  case json =>
    rw [himports]
    exact fun _ _ _ => by decide

/-- Not every module is well scoped: an enumeration that has the name of the input type is not
imported, and no constant has the name of its schema. -/
theorem status_not_wellScoped :
    ¬ ∀ (o : InputObject) (config : Config) (t : Schema), o.schema config = .ok t →
      t.WellScoped := by
  intro h
  let o : InputObject :=
    ⟨"Status", [⟨"value", true, false, [⟨.enumeration "Status" .library, false⟩]⟩], .free⟩
  have hscoped := h o .initial (o.resolved .initial) rfl
  have huse : (o.resolved .initial).body.Uses "StatusSchema" :=
    uses_resolved.mpr (Or.inl ⟨.toEnum "Status" "Status", by decide, rfl⟩)
  exact absurd (hscoped "StatusSchema" huse) (by decide)

end InputObject

end QueryValidator
