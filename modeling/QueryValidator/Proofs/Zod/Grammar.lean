import QueryValidator.Proofs.Zod.Layout
import QueryValidator.Proofs.Zod.Writable

/-!
# The grammar of expressions

`Phrase` has one rule for each form in which expressions are written, both layouts of objects among
them. Its words are identifiers, the names of the client's types and quoted values. They stand only
where a rule has a place for them, so that no other text is between the words but what the rules
write. Both texts of a writable expression are phrases.
-/

namespace QueryValidator.Zod.Expr

/-! ### Phrases -/

/-- A field of an object, from its key and the text of its value. -/
def entryText (f : Text × Text) : Text :=
  f.1 ++ ": " ++ f.2

/-- The text of an expression whose enumerations list only `values`. -/
inductive Phrase (values : List Text) : Text → Prop
  | scalar (s : Scalar) : Phrase values s.text
  | name {t : Text} : Text.isIdentifier t = true → Phrase values t
  | deferred {t : Text} : Phrase values t → Phrase values ("z.lazy(() => " ++ t ++ ")")
  | call {t : Text} {m : Text × (Expr → Expr)} : Phrase values t → m ∈ methods →
      Phrase values (t ++ m.1)
  /-- A call on a cast, which stands in parentheses. -/
  | callOnCast {t : Text} {m : Text × (Expr → Expr)} : Phrase values t → m ∈ methods →
      Phrase values ("(" ++ t ++ ")" ++ m.1)
  | cast {t target : Text} : Phrase values t → IsTypeName target →
      Phrase values (t ++ " as z.ZodType<Prisma." ++ target ++ ">")
  | union {ts : List Text} : (∀ t ∈ ts, Phrase values t) →
      Phrase values ("z.union(" ++ bracketed ts ++ ")")
  | emptyObject : Phrase values "z.object(\x7b\x7d)"
  | object {fs : List (Text × Text)} : (∀ f ∈ fs, Text.isIdentifier f.1 = true) →
      (∀ f ∈ fs, Phrase values f.2) →
      Phrase values ("z.object(\x7b " ++ Text.joinWith ", " (fs.map entryText) ++ " \x7d)")
  | objectLines {fs : List (Text × Text)} : (∀ f ∈ fs, Text.isIdentifier f.1 = true) →
      (∀ f ∈ fs, Phrase values f.2) →
      Phrase values ("z.object(\x7b\n" ++ (fs.map entryText).flatMap fieldLine ++ "\x7d)")
  | enumeration {vs : List Text} : vs ⊆ values →
      Phrase values ("z.enum(" ++ bracketed (vs.map Text.quoted) ++ ")")

variable {values : List Text} {e : Expr}

theorem Phrase.received {t : Text} (h : Phrase values t) (e : Expr)
    {m : Text × (Expr → Expr)} (hm : m ∈ methods) : Phrase values (e.receiver t ++ m.1) := by
  unfold receiver
  split
  · exact h.callOnCast hm
  · exact h.call hm

/-! ### Expressions -/

theorem map_fieldText (fs : List (Text × Expr)) :
    fs.map fieldText = (fs.map fun f => (f.1, f.2.text)).map entryText := by
  rw [List.map_map]
  refine List.map_congr_left fun f _ => ?_
  rw [fieldText_eq, Function.comp_apply, entryText, List.append_assoc]

theorem Writable.phrase_text (h : Writable values e) : Phrase values e.text := by
  induction h with
  | scalar s => exact .scalar s
  | ref hid => exact .name hid
  | deferred _ ih => exact ih.deferred
  | list _ ih => exact ih.received _ list_mem_methods
  | optional _ ih => exact ih.received _ optional_mem_methods
  | nullable _ ih => exact ih.received _ nullable_mem_methods
  | strict _ ih => exact ih.received _ strict_mem_methods
  | cast _ ht ih => exact ih.cast ht
  | @union es _ ih =>
    have htexts : ∀ t ∈ texts es, Phrase values t := by
      rw [texts_eq_map]
      exact List.forall_mem_map.mpr ih
    exact .union htexts
  | @object fs hkeys _ ih =>
    by_cases hne : fs = []
    · subst hne
      exact .emptyObject
    · rw [text_object hne, map_fieldText]
      exact .object (List.forall_mem_map.mpr hkeys) (List.forall_mem_map.mpr ih)
  | enumeration hvs => exact .enumeration hvs

theorem Writable.phrase_pretty (h : Writable values e) : Phrase values e.pretty := by
  induction h with
  | list _ ih => exact ih.received _ list_mem_methods
  | optional _ ih => exact ih.received _ optional_mem_methods
  | nullable _ ih => exact ih.received _ nullable_mem_methods
  | strict _ ih => exact ih.received _ strict_mem_methods
  | @object fs hkeys hvalues _ =>
    by_cases hne : fs = []
    · subst hne
      exact .emptyObject
    · have htexts : ∀ f ∈ fs, Phrase values f.2.text := fun f hf => (hvalues f hf).phrase_text
      rw [pretty_object hne, map_fieldText]
      exact .objectLines (List.forall_mem_map.mpr hkeys) (List.forall_mem_map.mpr htexts)
  -- all other expressions are written on one line
  | scalar s => exact (Writable.scalar s).phrase_text
  | ref hid => exact (Writable.ref hid).phrase_text
  | deferred h _ => exact h.deferred.phrase_text
  | cast h ht _ => exact (h.cast ht).phrase_text
  | union h _ => exact (Writable.union h).phrase_text
  | enumeration hvs => exact (Writable.enumeration hvs).phrase_text

end QueryValidator.Zod.Expr
