import QueryValidator.Proofs.Zod.Unambiguity

/-!
# Expressions that can be written

In a writable expression every name that is written as it stands is an identifier: references, the
keys of objects and the targets of casts. The values of an enumeration may be any text, since they
are quoted; the predicate keeps where they come from.
-/

namespace QueryValidator.Zod.Expr

/-- Names are identifiers, and what enumerations list is among `values`. -/
inductive Writable (values : List Text) : Expr → Prop
  | scalar (s : Scalar) : Writable values (.scalar s)
  | ref {ident : Text} : Text.isIdentifier ident = true → Writable values (.ref ident)
  | deferred {e : Expr} : Writable values e → Writable values (.deferred e)
  | list {e : Expr} : Writable values e → Writable values (.list e)
  | optional {e : Expr} : Writable values e → Writable values (.optional e)
  | nullable {e : Expr} : Writable values e → Writable values (.nullable e)
  | cast {e : Expr} {target : Text} : Writable values e → IsTypeName target →
      Writable values (.cast e target)
  | union {es : List Expr} : (∀ e ∈ es, Writable values e) → Writable values (.union es)
  | object {fs : List (Text × Expr)} : (∀ f ∈ fs, Text.isIdentifier f.1 = true) →
      (∀ f ∈ fs, Writable values f.2) → Writable values (.object fs)
  | strict {e : Expr} : Writable values e → Writable values (.strict e)
  | enumeration {vs : List Text} : vs ⊆ values → Writable values (.enumeration vs)

variable {values : List Text} {e : Expr}

theorem Writable.markOptional (h : Writable values e) : Writable values e.markOptional := by
  unfold Expr.markOptional
  split
  · exact h
  · exact .optional h

theorem isTypeName_ofName {name : Text} (h : Text.isIdentifier name = true) : IsTypeName name :=
  ⟨name, h, Or.inl rfl⟩

theorem isTypeName_list {name : Text} (h : Text.isIdentifier name = true) :
    IsTypeName (name ++ "[]") :=
  ⟨name, h, Or.inr rfl⟩

end QueryValidator.Zod.Expr
