import QueryValidator.Proofs.Query.Scope
import QueryValidator.Proofs.Zod.Expr
import Mathlib.Data.List.Forall2

/-!
# The alternatives of a field

A field offers the supported ones of its candidates, and of these only the lists if it is a filter
that has a list among several. The main statement says that the field's expression is made of the
branches of exactly these candidates, in their order: the rule for filters looks at expressions
that are optional already, and decides as if it looked at the candidates.
-/

namespace QueryValidator

open Zod (Expr)

/-! ### Branches -/

namespace Candidate

/-- Some validator exists for the candidate: it is a scalar, an enumeration, or a generated object.
-/
def isSupported (c : Candidate) : Bool :=
  match c.kind with
  | .scalar _ => true
  | .enumeration _ _ => true
  | .object _ .generated => true
  | .object _ .library => false
  | .unsupported _ => false

/-- `b` is the validator of the candidate alone: a scalar validator or a deferred reference, as a
list if the candidate is one, and for an object cast to the client's type of the object or of its
lists. -/
inductive Branch (config : Config) (owner : Text) (c : Candidate) : Expr → Prop
  | scalar {k : ScalarKind} (h : c.kind = .scalar k) :
      Branch config owner c (c.listed (.scalar k.validator))
  | enumeration {name : Text} {p : Provenance} (h : c.kind = .enumeration name p) :
      Branch config owner c (c.listed (.deferred (.ref (Reference.ofName name true owner).ident)))
  | object {name : Text} {r : Reference} (h : c.kind = .object name .generated)
      (hr : r = Reference.ofName name (config.isEnum name) owner) :
      Branch config owner c
        (.cast (c.listed (.deferred (.ref r.ident)))
          (if c.isList then r.typeName ++ "[]" else r.typeName))

variable {config : Config} {owner : Text} {c : Candidate} {b : Expr}

theorem branch_of_branch (h : c.branch config owner = some b) : Branch config owner c b := by
  unfold branch at h
  split at h
  · next k hk => cases h; exact .scalar hk
  · next name p hk => cases h; exact .enumeration hk
  · next name hk => cases h; exact .object hk rfl
  · cases h
  · cases h

theorem branch_eq_none_iff : c.branch config owner = none ↔ c.isSupported = false := by
  unfold branch isSupported
  split <;> simp [*]

theorem isList_listed {e : Expr} (he : e.isList = false) : (c.listed e).isList = c.isList := by
  unfold listed
  cases c.isList <;> simp [Expr.isList, he]

theorem Branch.isList_eq (h : Branch config owner c b) : b.isList = c.isList := by
  cases h with
  | scalar _ => exact isList_listed rfl
  | enumeration _ => exact isList_listed rfl
  | object _ _ => exact isList_listed rfl

/-- A branch has no modifier at its outside, nor one under its cast. -/
theorem Branch.unmarked (h : Branch config owner c b) :
    b.markOptional = .optional b ∧ b.markNullable = .nullable b ∧ b.stripNullable = b := by
  cases h with
  | scalar _ => unfold listed; split <;> exact ⟨rfl, rfl, rfl⟩
  | enumeration _ => unfold listed; split <;> exact ⟨rfl, rfl, rfl⟩
  | object _ _ =>
    unfold listed
    split <;> exact ⟨rfl, rfl, rfl⟩

end Candidate

namespace InputField

/-- The candidates that have a validator. -/
def supported (f : InputField) : List Candidate :=
  f.candidates.filter Candidate.isSupported

/-- The field has the name of a condition in a filter of scalars. -/
def IsCondition (f : InputField) : Prop :=
  f.name ∈ (["in", "notIn", "equals", "not", "lt", "lte", "gt", "gte", "contains", "startsWith",
    "endsWith", "mode", "path"] : List Text)

instance (f : InputField) : Decidable f.IsCondition :=
  inferInstanceAs (Decidable (f.name ∈ _))

/-- The candidates whose validators the field offers. -/
def offered (f : InputField) : List Candidate :=
  if f.IsCondition ∧ 1 < f.supported.length ∧ f.supported.any Candidate.isList then
    f.supported.filter Candidate.isList
  else f.supported

/-- The modifiers of the field around `e`. A field is optional if it is not required; but of a union
that is nullable already the optional mark is left out. -/
def marked (f : InputField) (several : Bool) (e : Expr) : Expr :=
  let isNullable := f.isNullable && !isRelationField f.name
  let isOptional := !f.isRequired && !(several && isNullable)
  let inner := if isOptional then .optional e else e
  if isNullable then .nullable inner else inner

/-- A union has the client's type of the first object among the candidates. -/
def typed (f : InputField) (e : Expr) : Expr :=
  match f.candidates.findSome? Candidate.generatedObject? with
  | some name => .cast e (whereInputOf name)
  | none => e

/-- The expression of the field from the branches of the candidates it offers. -/
def assembled (f : InputField) : List Expr → Expr
  | [b] => f.marked false b
  | bs => f.typed (f.marked true (.union bs))

/-- The branches of all supported candidates. -/
def branches (f : InputField) (config : Config) (owner : Text) : List Expr :=
  f.candidates.filterMap fun c => c.branch config owner

variable {config : Config} {owner : Text}

theorem forall₂_branches (config : Config) (owner : Text) (f : InputField) :
    List.Forall₂ (Candidate.Branch config owner) f.supported (f.branches config owner) := by
  unfold supported branches
  induction f.candidates with
  | nil => exact .nil
  | cons c cs ih =>
    cases hb : c.branch config owner with
    | none =>
      rw [List.filterMap_cons_none (f := fun c => Candidate.branch c config owner) hb,
        List.filter_cons_of_neg (by simp [Candidate.branch_eq_none_iff.mp hb])]
      exact ih
    | some b =>
      have hc : c.isSupported = true := by
        by_contra hn
        rw [Candidate.branch_eq_none_iff.mpr (by simpa using hn)] at hb
        exact absurd hb (by simp)
      rw [List.filterMap_cons_some (f := fun c => Candidate.branch c config owner) hb,
        List.filter_cons_of_pos hc]
      exact .cons (Candidate.branch_of_branch hb) ih

/-! ### The rule for filters -/

theorem any_isList_eq {cs : List Candidate} {bs : List Expr}
    (h : List.Forall₂ (Candidate.Branch config owner) cs bs) :
    bs.any Expr.isList = cs.any Candidate.isList := by
  induction h with
  | nil => rfl
  | cons hb _ ih => rw [List.any_cons, List.any_cons, hb.isList_eq, ih]

theorem forall₂_filter_isList {cs : List Candidate} {bs : List Expr}
    (h : List.Forall₂ (Candidate.Branch config owner) cs bs) :
    List.Forall₂ (Candidate.Branch config owner) (cs.filter Candidate.isList)
      (bs.filter Expr.isList) := by
  induction h with
  | nil => exact .nil
  | @cons c b cs bs hb _ ih =>
    cases hc : c.isList with
    | true =>
      rw [List.filter_cons_of_pos hc, List.filter_cons_of_pos (hb.isList_eq.trans hc)]
      exact .cons hb ih
    | false =>
      rw [List.filter_cons_of_neg (by simp [hc]),
        List.filter_cons_of_neg (by simp [hb.isList_eq, hc])]
      exact ih

/-- The branches that the rule for filters keeps are those of the candidates that the field offers.
-/
theorem forall₂_kept (config : Config) (owner : Text) (f : InputField) :
    List.Forall₂ (Candidate.Branch config owner) f.offered
      (kept f.name (f.branches config owner)) := by
  have h := forall₂_branches config owner f
  unfold offered kept
  rw [any_isList_eq h, ← h.length_eq]
  by_cases hf : f.IsCondition ∧ f.supported.length > 1 ∧ f.supported.any Candidate.isList = true
  · rw [if_pos hf, if_pos (hf.imp_left isFilterField_iff.mpr)]
    exact forall₂_filter_isList h
  · rw [if_neg hf, if_neg (mt (And.imp_left isFilterField_iff.mp) hf)]
    exact h

/-- Which of some items the rule for filters keeps, told by which of them are lists. -/
def chosen {ι : Type} (name : Text) (isList : ι → Bool) (xs : List ι) : List ι :=
  if isFilterField name ∧ xs.length > 1 ∧ xs.any isList then xs.filter isList else xs

theorem chosen_sublist {ι : Type} (name : Text) (isList : ι → Bool) (xs : List ι) :
    (chosen name isList xs).Sublist xs := by
  unfold chosen
  split
  · exact List.filter_sublist
  · exact List.Sublist.refl xs

/-- The rule for filters sees of the expressions only which of them are lists. -/
theorem kept_map_eq {ι : Type} (name : Text) (e : ι → Expr) (xs : List ι) :
    kept name (xs.map e) = (chosen name (fun x => (e x).isList) xs).map e := by
  unfold kept chosen
  rw [List.any_map, List.length_map, List.filter_map, apply_ite (List.map e)]
  rfl

/-- A map that keeps lists and values apart goes through the rule for filters. -/
theorem kept_map (name : Text) {g : Expr → Expr} (hg : ∀ e, (g e).isList = e.isList)
    (es : List Expr) : kept name (es.map g) = (kept name es).map g := by
  rw [kept_map_eq, funext hg]
  rfl

theorem offered_subset (f : InputField) : f.offered ⊆ f.candidates := by
  have hsupported : f.supported ⊆ f.candidates := List.filter_subset_self _
  unfold offered
  split
  · exact List.Subset.trans (List.filter_subset_self _) hsupported
  · exact hsupported

theorem offered_eq_nil_iff {f : InputField} : f.offered = [] ↔ f.supported = [] := by
  unfold offered
  split
  · next h =>
    obtain ⟨-, -, hany⟩ := h
    obtain ⟨c, hc, hl⟩ := List.any_eq_true.mp hany
    constructor
    · intro hn
      exact absurd hl (List.filter_eq_nil_iff.mp hn c hc)
    · intro hn
      rw [hn] at hc
      exact absurd hc List.not_mem_nil
  · rfl

/-! ### The expression -/

/-- What a field that is not required does to each alternative before the filter rule. -/
def alternative (f : InputField) (b : Expr) : Expr :=
  if f.isRequired then b else b.markOptional

/-- What the name of the field does to its finished expression. -/
def finished (f : InputField) (e : Expr) : Expr :=
  if isRelationField f.name then e.stripNullable else e

theorem alternatives_eq (f : InputField) :
    f.alternatives config owner = (f.branches config owner).map f.alternative := by
  unfold alternatives branches alternative
  rw [List.map_filterMap]

theorem isList_alternative (f : InputField) (e : Expr) : (f.alternative e).isList = e.isList := by
  unfold alternative
  split
  · rfl
  · exact Expr.isList_markOptional e

/-- The only alternative, with the modifiers of the field. -/
theorem finished_alternative {f : InputField} {c : Candidate} {b : Expr}
    (hb : Candidate.Branch config owner c b) :
    f.finished ((Modifier.ofField f.isRequired f.isNullable (isRelationField f.name)).apply
      (f.alternative b)) = f.marked false b := by
  obtain ⟨hopt, hnull, hstrip⟩ := hb.unmarked
  unfold finished alternative marked
  cases f.isRequired <;> cases f.isNullable <;> cases isRelationField f.name <;>
    simp [Modifier.ofField, Modifier.apply, Expr.stripNullable, hopt, hnull, hstrip]

/-- The union of several alternatives, with the modifiers of the field and the type of an object. -/
theorem finished_union (f : InputField) (bs : List Expr) :
    f.finished (f.typed ((Modifier.ofField f.isRequired f.isNullable
      (isRelationField f.name)).apply (.union bs))) = f.typed (f.marked true (.union bs)) := by
  unfold finished marked typed
  cases f.candidates.findSome? Candidate.generatedObject? <;> cases f.isRequired <;>
    cases f.isNullable <;> cases isRelationField f.name <;>
    simp [Modifier.ofField, Modifier.apply, Expr.stripNullable]

/-- Alternatives in a union lose their own optional marks again. -/
theorem map_stripOptional {f : InputField} {cs : List Candidate} {bs : List Expr}
    (h : List.Forall₂ (Candidate.Branch config owner) cs bs) :
    (bs.map f.alternative).map Expr.stripOptional = bs := by
  induction h with
  | nil => rfl
  | @cons c b cs bs hb _ ih =>
    have hstrip : (f.alternative b).stripOptional = b := by
      unfold alternative
      split
      · cases hb <;> unfold Candidate.listed <;> split <;> rfl
      · rw [hb.unmarked.1]
        rfl
    rw [List.map_cons, List.map_cons, hstrip, ih]

/-- Several expressions are combined to the union of them without their optional marks. -/
theorem combined_of_several (f : InputField) {es : List Expr} (h : 1 < es.length) :
    f.combined es = some (f.typed ((Modifier.ofField f.isRequired f.isNullable
      (isRelationField f.name)).apply (.union (es.map Expr.stripOptional)))) := by
  match es, h with
  | e :: e' :: es, _ =>
    unfold combined typed
    cases f.candidates.findSome? Candidate.generatedObject? <;> rfl

/-- The validator of a field with branches is assembled from those that the rule for filters
keeps. -/
theorem validator_eq_some {f : InputField} {cs : List Candidate}
    (h : List.Forall₂ (Candidate.Branch config owner) cs (kept f.name (f.branches config owner)))
    (hne : cs ≠ []) :
    f.validator config owner = some (f.assembled (kept f.name (f.branches config owner))) := by
  rw [validator, alternatives_eq, kept_map f.name (isList_alternative f)]
  generalize kept f.name (f.branches config owner) = bs at h
  cases h with
  | nil => exact absurd rfl hne
  | @cons c b cs bs hb hrest =>
    cases hrest with
    | nil => exact congrArg some (finished_alternative hb)
    | @cons c' b' cs bs hb' hrest =>
      have hlen : 1 < ((b :: b' :: bs).map f.alternative).length := by simp
      rw [combined_of_several f hlen, map_stripOptional (.cons hb (.cons hb' hrest))]
      exact congrArg some (finished_union f (b :: b' :: bs))

/-- A field none of whose candidates is supported has no validator. -/
theorem validator_eq_none {f : InputField} (h : f.supported = []) :
    f.validator config owner = none := by
  have hbs : f.branches config owner = [] := by
    have hall := forall₂_branches config owner f
    rw [h] at hall
    exact List.forall₂_nil_left_iff.mp hall
  rw [validator, alternatives_eq, hbs]
  simp [kept, combined]

/-- A validator of a field is assembled from the branches of the candidates that the field offers,
of which there is at least one. -/
theorem exists_branches_of_validator {f : InputField} {e : Expr}
    (h : f.validator config owner = some e) :
    ∃ bs, List.Forall₂ (Candidate.Branch config owner) f.offered bs ∧ bs ≠ [] ∧
      e = f.assembled bs := by
  have hbs := forall₂_kept config owner f
  have hsupported : f.supported ≠ [] := by
    intro hn
    rw [validator_eq_none hn] at h
    cases h
  have hoffered : f.offered ≠ [] := fun hn => hsupported (offered_eq_nil_iff.mp hn)
  rw [validator_eq_some hbs hoffered] at h
  refine ⟨_, hbs, ?_, (Option.some.inj h).symm⟩
  intro hn
  rw [hn] at hbs
  exact hoffered (List.forall₂_nil_right_iff.mp hbs)

end InputField

/-- **The alternatives of a field**: a field that may be written resolves, whatever was resolved
before it.  It has no entry exactly if it has no supported candidate.  Otherwise its entry has the
field's name and the branches of the candidates that the field offers, one for each and in their
order: a single one below the modifiers of the field, several as a union below the modifiers and the
type of the first object. -/
theorem resolve_offers {f : InputField} (hname : Text.isIdentifier f.name = true)
    (hrefs : ∀ c ∈ f.candidates, ∀ name, c.reference? = some name → Text.isIdentifier name = true)
    (config : Config) (owner : Text) (s : Scope) :
    ((s.resolve config owner f).2 = .ok none ↔ f.supported = []) ∧
    (f.supported ≠ [] → ∃ bs, List.Forall₂ (Candidate.Branch config owner) f.offered bs ∧
      (s.resolve config owner f).2 = .ok (some (f.name, f.assembled bs))) := by
  have hwrite : ∀ c ∈ f.candidates, c.isWritable = true := by
    intro c hc
    cases hr : c.reference? with
    | none => simp [Candidate.isWritable, hr]
    | some name => simpa [Candidate.isWritable, hr] using hrefs c hc name hr
  have hok : f.violation? owner = none :=
    InputField.violation?_eq_none_iff.mpr ⟨hname, hwrite⟩
  have hbs := InputField.forall₂_kept config owner f
  rw [Scope.resolve_of_writable hok, InputField.entry?]
  by_cases hs : f.supported = []
  · rw [InputField.validator_eq_none hs]
    exact ⟨⟨fun _ => hs, fun _ => rfl⟩, fun h => absurd hs h⟩
  · rw [InputField.validator_eq_some hbs fun h => hs (InputField.offered_eq_nil_iff.mp h)]
    exact ⟨⟨fun h => absurd h (by simp), fun h => absurd h hs⟩, fun _ => ⟨_, hbs, rfl⟩⟩

/-- A filter with a value, a list and an unsupported candidate offers the list alone. -/
theorem in_offers_list :
    (Scope.empty.resolve .initial "PostWhereInput" ⟨"in", false, false,
      [⟨.scalar .int, false⟩, ⟨.scalar .int, true⟩, ⟨.unsupported "Null", false⟩]⟩).2 =
      .ok (some ("in".toList, .optional (.list (.scalar .number)))) := by
  obtain ⟨bs, hbs, hr⟩ := (resolve_offers (f := ⟨"in", false, false,
    [⟨.scalar .int, false⟩, ⟨.scalar .int, true⟩, ⟨.unsupported "Null", false⟩]⟩) (by decide)
    (by simp [Candidate.reference?]) .initial "PostWhereInput" .empty).2 (by decide)
  have hoffered : (InputField.mk "in" false false [⟨.scalar .int, false⟩, ⟨.scalar .int, true⟩,
      ⟨.unsupported "Null", false⟩]).offered = [⟨.scalar .int, true⟩] := by decide
  rw [hoffered] at hbs
  rw [hr]
  cases hbs with
  | cons hb hnil =>
    cases hnil
    cases hb with
    | scalar hk =>
      cases hk
      rfl
    | enumeration hk => cases hk
    | object hk _ => cases hk

end QueryValidator
