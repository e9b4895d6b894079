import QueryValidator.Module.Schema
import QueryValidator.Proofs.Module.ImportList
import QueryValidator.Proofs.Zod.Occurrence

/-!
# Identifiers of a module

The identifiers that the expression of a module uses, and the names that the module declares: some
are imported, the others are those of its constants. A module is well scoped if each identifier used
is declared exactly once. As no two imports and no two constants have the same name, this means that
the identifier is imported or the name of a constant, but not both (`count_declared_eq_one_iff`).
-/

namespace QueryValidator

open Zod (Expr Scalar jsonIdent)

/-! ### Used identifiers -/

namespace Zod.Expr

/-- The expression refers to the identifier, be it only by validating arbitrary JSON. -/
def Uses (e : Expr) (ident : Text) : Prop :=
  (ref ident).OccursIn e ∨ ident = jsonIdent ∧ (scalar .json).OccursIn e

variable {e : Expr} {ident : Text}

@[simp] theorem uses_ref {target : Text} : (ref target).Uses ident ↔ ident = target := by
  simp [Uses]

@[simp] theorem uses_scalar {s : Scalar} :
    (scalar s).Uses ident ↔ s = .json ∧ ident = jsonIdent := by
  simp [Uses, and_comm, eq_comm]

@[simp] theorem uses_optional : (optional e).Uses ident ↔ e.Uses ident := by
  simp [Uses]

@[simp] theorem uses_union {es : List Expr} :
    (union es).Uses ident ↔ ∃ e ∈ es, e.Uses ident := by
  simp [Uses, and_or_left, exists_or, and_left_comm]

end Zod.Expr

/-! ### Declared names -/

/-- The validator of the values that JSON is made of. -/
def literalIdent : Text := "literalSchema"

/-- The schema with the type of the client, before it is exported. -/
def annotatedIdent : Text := "Schema"

/-- The constants that a module may have besides the one that it exports. -/
def helperIdents : List Text := [literalIdent, jsonIdent, annotatedIdent]

/-- The constants of an object's module besides the one that it exports. -/
def Annotation.constants (a : Annotation) : List Text :=
  if a.usesJson then helperIdents else [annotatedIdent]

theorem Annotation.constants_sublist (a : Annotation) : a.constants.Sublist helperIdents := by
  unfold constants
  split
  · exact .refl _
  · decide

namespace Schema

/-- The constants of the module, the exported one being the last. -/
def constants (t : Schema) : List Text :=
  (match t.object with
    | some a => a.constants
    | none => []) ++ [t.exportName]

/-- The names that the module imports and those of its constants. -/
def declared (t : Schema) : List Text :=
  t.imports.entries.map Import.ident ++ t.constants

/-- Each identifier that the expression uses is declared exactly once. -/
def WellScoped (t : Schema) : Prop :=
  ∀ ident, t.body.Uses ident → t.declared.count ident = 1

variable {t : Schema} {ident : Text}

theorem constants_nodup (h : t.exportName ∉ helperIdents) : t.constants.Nodup := by
  have hhelpers : helperIdents.Nodup := by decide
  unfold constants
  cases t.object with
  | none => simp
  | some a =>
    refine List.nodup_append.mpr ⟨hhelpers.sublist a.constants_sublist, by simp, ?_⟩
    rintro ident ha _ hb rfl
    rw [List.mem_singleton] at hb
    exact h (hb ▸ a.constants_sublist.subset ha)

/-- A name that is none of the helpers' is that of a constant only if it is exported. -/
theorem mem_constants_of_not_helper (h : ident ∉ helperIdents) :
    ident ∈ t.constants ↔ ident = t.exportName := by
  unfold constants
  cases t.object with
  | none => exact List.mem_singleton
  | some a =>
    rw [List.mem_append, List.mem_singleton]
    exact or_iff_right fun ha => h (a.constants_sublist.subset ha)

theorem count_declared_eq_one_iff (h : t.constants.Nodup) :
    t.declared.count ident = 1 ↔ (t.imports.contains ident = true ↔ ident ∉ t.constants) := by
  have himported : t.imports.contains ident = true ↔
      ident ∈ t.imports.entries.map Import.ident := by
    rw [ImportList.contains_iff, List.mem_map]
  rw [declared, List.count_append, t.imports.distinct.count, h.count, himported]
  by_cases hi : ident ∈ t.imports.entries.map Import.ident <;>
    by_cases hc : ident ∈ t.constants <;> simp [hi, hc]

end Schema

end QueryValidator
