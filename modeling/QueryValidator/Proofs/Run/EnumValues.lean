import QueryValidator.Proofs.Json.Strings
import QueryValidator.Proofs.Module.Header
import QueryValidator.Proofs.Run.Resolved
import QueryValidator.Proofs.Text.Search

/-!
# Values of an enumeration in its module

The values of an enumeration may be any text. They are written as quoted strings on the third and
last line of the module, so that no value ends the line or the list, and `declaredValues?` gets them
back from the text.
-/

namespace QueryValidator

open Zod (Expr)

/-! ### The list of values -/

namespace Json

def string? : Json → Option Text
  | .string t => some t
  | _ => none

/-- The members of an array of strings. -/
def strings? : Json → Option (List Text)
  | .array items => items.mapM string?
  | _ => none

theorem strings?_array (ts : List Text) : (array (ts.map Json.string)).strings? = some ts := by
  induction ts with
  | nil => rfl
  | cons t ts ih =>
    rw [strings?] at ih
    rw [strings?, List.map_cons, List.mapM_cons, ih]
    rfl

end Json

namespace Zod.Expr

/-- The values of an enumeration, each quoted. -/
def valueList (vs : List Text) : Text :=
  bracketed (vs.map Text.quoted)

theorem text_enumeration (vs : List Text) :
    (enumeration vs).text = "z.enum(" ++ valueList vs ++ ")" :=
  rfl

/-- An enumeration is written on one line in the module as well. -/
theorem pretty_enumeration (vs : List Text) :
    (enumeration vs).pretty = "z.enum(" ++ valueList vs ++ ")" :=
  rfl

theorem le_toNat_of_mem_valueList {vs : List Text} {c : Char} (h : c ∈ valueList vs) :
    32 ≤ c.toNat := by
  have hopen : ∀ c ∈ "[".toList, 32 ≤ c.toNat := by simp
  have hcomma : ∀ c ∈ ", ".toList, 32 ≤ c.toNat := by simp
  have hclose : ∀ c ∈ "]".toList, 32 ≤ c.toNat := by simp
  rw [valueList, bracketed, List.mem_append, List.mem_append] at h
  rcases h with (h | h) | h
  · exact hopen c h
  · rcases Text.mem_joinWith h with h | ⟨t, ht, hc⟩
    · exact hcomma c h
    · obtain ⟨v, -, rfl⟩ := List.mem_map.mp ht
      exact Text.le_toNat_of_mem_quoted hc
  · exact hclose c h

theorem parse_valueList (vs : List Text) :
    Json.parse (valueList vs) = .ok (.array (vs.map Json.string)) :=
  Json.parse_quoted vs

end Zod.Expr

/-! ### The module -/

/-- The values in the text of an enumeration's module: what the first call of `z.enum` is given, up
to the end of the text, read as an array of strings. -/
def declaredValues? (source : Text) : Option (List Text) := do
  let (_, rest) ← Text.cut? "z.enum(" source
  let list ← Text.dropEnding? ");\n" rest
  let value ← (Json.parse list).toOption
  value.strings?

namespace EnumType

/-- How the line begins that declares the enumeration. -/
def declared (e : EnumType) : Text :=
  "export const " ++ enumIdent e.name ++ " = "

/-- What the enumeration is declared as, to the end of the line. -/
def call (e : EnumType) : Text :=
  "z.enum(" ++ (Expr.valueList e.values ++ ");")

theorem source_resolved (e : EnumType) :
    e.resolved.source = libraryLine ++ "\n" ++ "\n" ++ e.declared ++
      ("z.enum(".toList ++ (Expr.valueList e.values ++ ");\n")) := by
  have hbody : e.resolved.body.pretty = "z.enum(" ++ Expr.valueList e.values ++ ")" :=
    Expr.pretty_enumeration e.values
  have himports : e.resolved.imports.text e.resolved.category = [] := rfl
  have hlibrary : zodImport = libraryLine ++ "\n" := rfl
  have hstart : "\nexport const ".toList = "\n".toList ++ "export const ".toList := rfl
  have hend : ");\n".toList = ")".toList ++ ";\n".toList := rfl
  unfold Schema.source declared
  rw [hbody, himports, hlibrary]
  simp only [resolved, hstart, hend, List.append_assoc, List.nil_append]

variable {e : EnumType}

/-- A character that no name has is in the beginning of the declaration only if it is a blank or the
sign. -/
theorem not_mem_declared {c : Char} (h : Text.isIdentifier e.name = true)
    (hc : Text.isIdentifierPart c = false) (hsign : c ∉ " = ".toList) : c ∉ e.declared := by
  have hstart : ∀ x ∈ "export const ".toList,
      Text.isIdentifierPart x = true ∨ x ∈ " = ".toList := by simp [Text.isIdentifierPart]
  intro hm
  rcases List.mem_append.mp hm with hm | hm
  · rcases List.mem_append.mp hm with hm | hm
    · rcases hstart c hm with hpart | hs
      · rw [hc] at hpart
        exact Bool.false_ne_true hpart
      · exact hsign hs
    · exact Text.not_mem_of_isIdentifier (isIdentifier_enumIdent h) hc hm
  · exact hsign hm

theorem newline_not_mem_call (e : EnumType) : '\n' ∉ e.call := by
  intro h
  rcases List.mem_append.mp h with h | h
  · exact absurd h (by decide)
  · rcases List.mem_append.mp h with h | h
    · exact absurd (Expr.le_toNat_of_mem_valueList h) (by decide)
    · exact absurd h (by decide)

/-- The module has three lines. -/
theorem splitAt_source (h : Text.isIdentifier e.name = true) :
    Text.splitAt '\n' e.resolved.source = [libraryLine, [], e.declared ++ e.call, []] := by
  have hlines : e.resolved.source =
      libraryLine ++ '\n' :: ([] ++ '\n' :: (e.declared ++ e.call ++ '\n' :: [])) := by
    unfold call
    rw [source_resolved]
    simp
  have hdeclaration : '\n' ∉ e.declared ++ e.call := by
    rw [List.mem_append, not_or]
    exact ⟨not_mem_declared h (by decide) (by decide), e.newline_not_mem_call⟩
  rw [hlines, Text.splitAt_append_cons, Text.splitAt_append_cons, Text.splitAt_append_cons,
    Text.splitAt_of_not_mem hdeclaration]
  rfl

theorem declaredValues?_source (h : Text.isIdentifier e.name = true) :
    declaredValues? e.resolved.source = some e.values := by
  have hout : Text.occursIn "z.enum(" (libraryLine ++ "\n" ++ "\n" ++ e.declared) = false := by
    refine Bool.eq_false_iff.mpr fun hocc => ?_
    have hmark := Text.occursIn_iff.mp hocc
    -- the mark has a point, and nothing before the call has one
    have hmem : '.' ∈ "z.enum(".toList := by decide
    have hpoint : '.' ∈ libraryLine ++ "\n" ++ "\n" ++ e.declared := hmark.subset hmem
    rcases List.mem_append.mp hpoint with hp | hp
    · exact absurd hp (by decide)
    · exact not_mem_declared h (by decide) (by decide) hp
  have hcut : Text.cut? "z.enum(" e.resolved.source =
      some (libraryLine ++ "\n" ++ "\n" ++ e.declared, Expr.valueList e.values ++ ");\n") := by
    rw [source_resolved]
    exact Text.cut?_append_of_not_occurs (by decide) hout _
  unfold declaredValues?
  simp only [hcut, Option.bind_eq_bind, Option.bind_some, Text.dropEnding?_append,
    Expr.parse_valueList, Except.toOption, Json.strings?_array]

/-- **Values of an enumeration**: whatever the values are, they are written as a list without control
characters that is JSON for them; so the module of an enumeration has three lines, and the values can
be read from it. -/
theorem values_recovered :
    (∀ vs : List Text, ∃ list : Text,
      (Expr.enumeration vs).text = "z.enum(" ++ list ++ ")" ∧
      (Expr.enumeration vs).pretty = "z.enum(" ++ list ++ ")" ∧
      (∀ c ∈ list, 32 ≤ c.toNat) ∧
      Json.parse list = .ok (.array (vs.map Json.string))) ∧
    ∀ e : EnumType, Text.isIdentifier e.name = true → ∃ t, e.schema = .ok t ∧
      Text.splitAt '\n' t.source = [libraryLine, [], e.declared ++ e.call, []] ∧
      declaredValues? t.source = some e.values := by
  constructor
  · intro vs
    exact ⟨Expr.valueList vs, Expr.text_enumeration vs, Expr.pretty_enumeration vs,
      fun _ => Expr.le_toNat_of_mem_valueList, Expr.parse_valueList vs⟩
  · intro e h
    have hschema : e.schema = .ok e.resolved := by
      rw [schema, h]
      rfl
    exact ⟨e.resolved, hschema, splitAt_source h, declaredValues?_source h⟩

/-- An enumeration of texts that would end a string, a list, a line or a call. -/
def marks : EnumType where
  name := "Marks"
  values := ["", "\"", "\\", "a\", \"b", "one\ntwo", "\x00\x1b", "\"]);", "z.enum([", "größer"]

theorem marks_recovered : Text.isIdentifier marks.name = true ∧ ∃ t, marks.schema = .ok t ∧
    Text.splitAt '\n' t.source = [libraryLine, [], marks.declared ++ marks.call, []] ∧
    declaredValues? t.source = some marks.values :=
  ⟨by decide, values_recovered.2 marks (by decide)⟩

end EnumType

end QueryValidator
