import QueryValidator.Proofs.Text.Search
import QueryValidator.Query.Input
import Mathlib.Data.List.Forall2

/-!
# Required fields of unique lookups

The constraints of unique lookups make fields required before these are resolved. `o.Requires f`
says when the field `f` of `o` is required then. Marking gives each field this flag and changes
nothing else (`isMarking_iff`), so it takes no flag away, marks each input type by itself, and has
nothing left to do a second time (`markRequired_exact`).
-/

namespace QueryValidator.InputObject

/-! ### Which fields are required -/

/-- The type is the lookup of one record. -/
def IsLookup (o : InputObject) : Prop :=
  "WhereUniqueInput".toList <:+: o.name

/-- Exactly one field is to be given. -/
def TakesOne (o : InputObject) : Prop :=
  o.constraints.min = some 1 ∧ o.constraints.max = some 1

/-- How the field `f` of `o` comes to be required. -/
inductive Requires (o : InputObject) (f : InputField) : Prop
  | declared : f.isRequired = true → Requires o f
  | single : o.IsLookup → o.TakesOne → Requires o f
  | listed {names : List Text} : o.IsLookup → ¬ o.TakesOne → o.constraints.fields = some names →
      f.name ∈ names → Requires o f

/-- `g` is the field `f` of `o` with the flag that it should have. -/
structure IsFieldMarking (o : InputObject) (f g : InputField) : Prop where
  same : g = { f with isRequired := g.isRequired }
  required_iff : g.isRequired = true ↔ o.Requires f

/-- `p` is `o` with the flags that its fields should have. -/
structure IsMarking (o p : InputObject) : Prop where
  same : p = { o with fields := p.fields }
  fields : List.Forall₂ o.IsFieldMarking o.fields p.fields

variable {o p : InputObject} {f g : InputField}

theorem isUniqueLookup_iff : isUniqueLookup o.name = true ↔ o.IsLookup :=
  Text.occursIn_iff

theorem demands_iff {name : Text} : o.demands name = true ↔
    o.TakesOne ∨ ¬ o.TakesOne ∧ ∃ names, o.constraints.fields = some names ∧ name ∈ names := by
  have hlisted : (o.constraints.fields.getD []).contains name = true ↔
      ∃ names, o.constraints.fields = some names ∧ name ∈ names := by
    cases o.constraints.fields <;> simp
  unfold demands TakesOne
  split
  · next hone => exact iff_of_true rfl (Or.inl hone)
  · next hone => rw [hlisted, or_iff_right hone, and_iff_right hone]

theorem requires_iff : o.Requires f ↔
    f.isRequired = true ∨ isUniqueLookup o.name = true ∧ o.demands f.name = true := by
  rw [isUniqueLookup_iff, demands_iff]
  constructor
  · rintro (hold | ⟨hlookup, hone⟩ | ⟨hlookup, hone, hnames, hmem⟩)
    · exact Or.inl hold
    · exact Or.inr ⟨hlookup, Or.inl hone⟩
    · exact Or.inr ⟨hlookup, Or.inr ⟨hone, _, hnames, hmem⟩⟩
  · rintro (hold | ⟨hlookup, hone | ⟨hone, names, hnames, hmem⟩⟩)
    · exact .declared hold
    · exact .single hlookup hone
    · exact .listed hlookup hone hnames hmem

/-! ### Marking -/

/-- The field with the flag that the type gives it. -/
def markedField (o : InputObject) (f : InputField) : InputField :=
  { f with isRequired := f.isRequired || isUniqueLookup o.name && o.demands f.name }

theorem markRequired_eq (o : InputObject) :
    o.markRequired = { o with fields := o.fields.map o.markedField } := by
  unfold markRequired markedField
  cases isUniqueLookup o.name with
  | true =>
    rw [if_pos rfl]
    congr 2
    funext f
    cases o.demands f.name <;> simp
  | false => simp

theorem isFieldMarking_iff (o : InputObject) (f g : InputField) :
    o.IsFieldMarking f g ↔ g = o.markedField f := by
  have hflag : (o.markedField f).isRequired = true ↔ o.Requires f := by
    rw [requires_iff, markedField, Bool.or_eq_true, Bool.and_eq_true]
  constructor
  · rintro ⟨hsame, hrequired⟩
    have heq : g.isRequired = (o.markedField f).isRequired :=
      Bool.eq_iff_iff.mpr (hrequired.trans hflag.symm)
    rw [hsame, heq]
    rfl
  · rintro rfl
    exact ⟨rfl, hflag⟩

/-- A relation that is a function's relates a list to its image only. -/
theorem forall₂_iff_eq_map {α β : Type} {r : α → β → Prop} {F : α → β}
    (h : ∀ x y, r x y ↔ y = F x) {xs : List α} {ys : List β} :
    List.Forall₂ r xs ys ↔ ys = xs.map F := by
  obtain rfl : r = fun x y => F x = y := by
    funext x y
    exact propext ((h x y).trans eq_comm)
  rw [← List.forall₂_map_left_iff, List.forall₂_eq_eq_eq, eq_comm]

theorem forall₂_isFieldMarking_iff {fs gs : List InputField} :
    List.Forall₂ o.IsFieldMarking fs gs ↔ gs = fs.map o.markedField :=
  forall₂_iff_eq_map o.isFieldMarking_iff

/-- Marking gives the fields the flags that they should have. -/
theorem isMarking_iff (o p : InputObject) : o.IsMarking p ↔ p = o.markRequired := by
  rw [markRequired_eq]
  constructor
  · rintro ⟨hsame, hfields⟩
    rw [hsame, forall₂_isFieldMarking_iff.mp hfields]
  · rintro rfl
    exact ⟨rfl, forall₂_isFieldMarking_iff.mpr rfl⟩

theorem forall₂_isMarking_iff {os ps : List InputObject} :
    List.Forall₂ IsMarking os ps ↔ ps = os.map markRequired :=
  forall₂_iff_eq_map isMarking_iff

/-- A marked type requires no more than it marks. -/
theorem IsFieldMarking.again (hp : o.IsMarking p) (hg : o.IsFieldMarking f g) :
    p.IsFieldMarking g g := by
  obtain ⟨hsame, -⟩ := hp
  obtain ⟨hname, hrequired⟩ : g.name = f.name ∧ _ := ⟨by rw [hg.same], hg.required_iff⟩
  refine ⟨rfl, .declared, ?_⟩
  rintro (hold | ⟨hlookup, hone⟩ | ⟨hlookup, hone, hnames, hmem⟩)
  · exact hold
  · rw [hsame] at hlookup hone
    exact hrequired.mpr (.single hlookup hone)
  · rw [hsame] at hlookup hone hnames
    rw [hname] at hmem
    exact hrequired.mpr (.listed hlookup hone hnames hmem)

theorem markRequired_markRequired (o : InputObject) :
    o.markRequired.markRequired = o.markRequired := by
  have hmarking : o.IsMarking o.markRequired := (isMarking_iff _ _).mpr rfl
  refine ((isMarking_iff _ _).mp ⟨rfl, List.forall₂_same.mpr fun g hg => ?_⟩).symm
  obtain ⟨f, -, rfl⟩ : ∃ f ∈ o.fields, o.markedField f = g := by
    rw [markRequired_eq] at hg
    exact List.mem_map.mp hg
  exact .again hmarking ((isFieldMarking_iff o f _).mpr rfl)

/-- **Required fields**: marking changes the flags of fields and nothing else, and a field is
required afterwards exactly if its type says so. No flag is taken away; what a type becomes depends
neither on the other types nor on its place among them; and marking twice is marking once. -/
theorem markRequired_exact (os : List InputObject) :
    (∀ ps, List.Forall₂ IsMarking os ps ↔ ps = os.map markRequired) ∧
    List.Forall₂ (fun o p => List.Forall₂
      (fun f g => f.isRequired = true → g.isRequired = true) o.fields p.fields)
      os (os.map markRequired) ∧
    (∀ (us : List InputObject) (i j : Nat), os[i]? = us[j]? →
      (os.map markRequired)[i]? = (us.map markRequired)[j]?) ∧
    (os.map markRequired).map markRequired = os.map markRequired := by
  have hmarking : List.Forall₂ IsMarking os (os.map markRequired) := forall₂_isMarking_iff.mpr rfl
  refine ⟨fun ps => forall₂_isMarking_iff, ?_, fun us i j h => ?_, ?_⟩
  · refine hmarking.imp fun o p hp => hp.fields.imp fun f g hg hf => ?_
    exact hg.required_iff.mpr (.declared hf)
  · rw [List.getElem?_map, List.getElem?_map, h]
  · rw [List.map_map]
    exact List.map_congr_left fun o _ => markRequired_markRequired o

/-- A field of the lookups below. -/
def lookupField (name : Text) (isRequired : Bool) : InputField :=
  ⟨name, isRequired, false, [⟨.scalar .string, false⟩]⟩

/-- A lookup by exactly one field, a lookup that lists fields, of which it has one twice and another
not at all, and a type that is no lookup. -/
def lookups : List InputObject := [
  ⟨"UserWhereUniqueInput", [lookupField "id" false, lookupField "email" false],
    ⟨some 1, some 1, some ["id"]⟩⟩,
  ⟨"PostWhereUniqueInput", [lookupField "id" false, lookupField "slug" true,
    lookupField "title" false, lookupField "id" false], ⟨none, some 1, some ["id", "key"]⟩⟩,
  ⟨"UserWhereInput", [lookupField "id" false], ⟨some 1, some 1, some ["id"]⟩⟩]

theorem lookups_marked :
    List.Forall₂ IsMarking lookups [
      ⟨"UserWhereUniqueInput", [lookupField "id" true, lookupField "email" true],
        ⟨some 1, some 1, some ["id"]⟩⟩,
      ⟨"PostWhereUniqueInput", [lookupField "id" true, lookupField "slug" true,
        lookupField "title" false, lookupField "id" true], ⟨none, some 1, some ["id", "key"]⟩⟩,
      ⟨"UserWhereInput", [lookupField "id" false], ⟨some 1, some 1, some ["id"]⟩⟩] ∧
    lookups[0]? = lookups.reverse[2]? ∧
    (lookups.map markRequired)[0]? = (lookups.reverse.map markRequired)[2]? := by
  obtain ⟨hexact, -, hplace, -⟩ := markRequired_exact lookups
  have hsame : lookups[0]? = lookups.reverse[2]? := rfl
  exact ⟨(hexact _).mpr rfl, hsame, hplace lookups.reverse 0 2 hsame⟩

end QueryValidator.InputObject
