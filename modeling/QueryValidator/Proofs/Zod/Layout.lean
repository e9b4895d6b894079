import QueryValidator.Proofs.Text.Join
import QueryValidator.Proofs.Text.Quoted
import QueryValidator.Proofs.Zod.Expr
import QueryValidator.Proofs.Zod.Reader
import QueryValidator.Proofs.Zod.References

/-!
# One line or several lines

Modules are written with `Expr.pretty`, which differs from `Expr.text` only for an object with
fields, alone or under method calls: each field has a line of its own there, with the same text, and
the calls follow the closing brace (`pretty_layout`). If no name has a line feed these are all the
lines, since no text of an expression has one either (`newline_not_mem_text`).
-/

namespace QueryValidator.Zod.Expr

/-! ### Names -/

/-- The name is written into the expression as it stands, at whatever depth. -/
inductive IsNameIn (name : Text) (e : Expr) : Prop
  | reference (h : (ref name).OccursIn e) : IsNameIn name e
  | target {x : Expr} (h : (cast x name).OccursIn e) : IsNameIn name e
  | key {fs : List (Text × Expr)} {x : Expr} (h : (object fs).OccursIn e)
      (hkey : (name, x) ∈ fs) : IsNameIn name e

theorem IsNameIn.occursIn {name : Text} {e p : Expr} (h : IsNameIn name p) (hp : p.OccursIn e) :
    IsNameIn name e := by
  cases h with
  | reference h => exact .reference (h.trans hp)
  | target h => exact .target (h.trans hp)
  | key h hkey => exact .key (h.trans hp) hkey

/-! ### Method calls -/

section

variable {m : Text × (Expr → Expr)}

theorem pretty_method (hm : m ∈ methods) (e : Expr) :
    (m.2 e).pretty = e.receiver e.pretty ++ m.1 := by
  rcases eq_of_mem_methods hm with rfl | rfl | rfl | rfl <;> rfl

theorem isCast_method (hm : m ∈ methods) (e : Expr) : (m.2 e).isCast = false := by
  rcases eq_of_mem_methods hm with rfl | rfl | rfl | rfl <;> rfl

theorem parts_method (hm : m ∈ methods) (e : Expr) : (m.2 e).parts = [e] := by
  rcases eq_of_mem_methods hm with rfl | rfl | rfl | rfl <;> rfl

theorem newline_not_mem_method (hm : m ∈ methods) : '\n' ∉ m.1 := by
  rcases eq_of_mem_methods hm with rfl | rfl | rfl | rfl <;> decide

end

/-! ### Line feeds -/

theorem newline_not_mem_enclosed {start t ending : Text} (h : '\n' ∉ t) (hstart : '\n' ∉ start)
    (hending : '\n' ∉ ending) : '\n' ∉ start ++ t ++ ending := by
  rw [List.mem_append, List.mem_append, not_or, not_or]
  exact ⟨⟨hstart, h⟩, hending⟩

theorem newline_not_mem_bracketed {ts : List Text} (h : ∀ t ∈ ts, '\n' ∉ t) :
    '\n' ∉ bracketed ts :=
  newline_not_mem_enclosed (Text.not_mem_joinWith (by decide) h) (by decide) (by decide)

theorem newline_not_mem_call {m : Text × (Expr → Expr)} (hm : m ∈ methods) {e : Expr}
    (h : '\n' ∉ e.text) : '\n' ∉ (m.2 e).text := by
  rw [text_method hm, List.mem_append, not_or]
  refine ⟨?_, newline_not_mem_method hm⟩
  unfold receiver
  split
  · exact newline_not_mem_enclosed h (by decide) (by decide)
  · exact h

theorem newline_not_mem_fieldText {f : Text × Expr} (hkey : '\n' ∉ f.1) (hvalue : '\n' ∉ f.2.text) :
    '\n' ∉ fieldText f := by
  rw [fieldText_eq, List.mem_append, List.mem_append, not_or, not_or]
  exact ⟨hkey, by decide, hvalue⟩

/-- Line feeds come from names alone, since the values of enumerations are quoted. -/
theorem newline_not_mem_text {e : Expr} (h : ∀ name, IsNameIn name e → '\n' ∉ name) :
    '\n' ∉ e.text := by
  have hparts : ∀ p ∈ e.parts, '\n' ∉ p.text := fun p hp =>
    have := sizeOf_lt_of_mem_parts hp
    newline_not_mem_text fun name hname => h name (hname.occursIn (.part hp .root))
  cases e with
  | scalar s => cases s <;> decide
  | ref ident => exact h ident (.reference .root)
  | deferred e => exact newline_not_mem_enclosed (hparts e (.head _)) (by decide) (by decide)
  | list e => exact newline_not_mem_call list_mem_methods (hparts e (.head _))
  | optional e => exact newline_not_mem_call optional_mem_methods (hparts e (.head _))
  | nullable e => exact newline_not_mem_call nullable_mem_methods (hparts e (.head _))
  | strict e => exact newline_not_mem_call strict_mem_methods (hparts e (.head _))
  | cast e target =>
    have hstart : '\n' ∉ e.text ++ " as z.ZodType<Prisma." := by
      rw [List.mem_append, not_or]
      exact ⟨hparts e (.head _), by decide⟩
    exact newline_not_mem_enclosed (h target (.target .root)) hstart (by decide)
  | union es =>
    have hes : ∀ t ∈ texts es, '\n' ∉ t := by
      rw [texts_eq_map]
      exact List.forall_mem_map.mpr hparts
    exact newline_not_mem_enclosed (newline_not_mem_bracketed hes) (by decide) (by decide)
  | object fs =>
    cases fs with
    | nil => decide
    | cons f fs =>
      have hfields : ∀ t ∈ fieldTexts (f :: fs), '\n' ∉ t := by
        rw [fieldTexts_eq_map]
        exact List.forall_mem_map.mpr fun g hg => newline_not_mem_fieldText
          (h g.1 (.key .root hg)) (hparts g.2 (List.mem_map_of_mem hg))
      exact newline_not_mem_enclosed (Text.not_mem_joinWith (by decide) hfields) (by decide)
        (by decide)
  | enumeration values =>
    have hvalues : ∀ t ∈ values.map Text.quoted, '\n' ∉ t :=
      List.forall_mem_map.mpr fun v _ => Text.newline_not_mem_quoted v
    exact newline_not_mem_enclosed (newline_not_mem_bracketed hvalues) (by decide) (by decide)
termination_by sizeOf e

/-! ### Objects under method calls -/

/-- The expression is the object with the fields `fs` under method calls, and these are written
`calls`. -/
inductive CallsOn (fs : List (Text × Expr)) : Expr → Text → Prop
  | object : CallsOn fs (.object fs) []
  | method {m : Text × (Expr → Expr)} {e : Expr} {calls : Text} (hm : m ∈ methods)
      (h : CallsOn fs e calls) : CallsOn fs (m.2 e) (calls ++ m.1)

theorem text_object {fs : List (Text × Expr)} (h : fs ≠ []) : (object fs).text =
    "z.object(\x7b " ++ Text.joinWith ", " (fs.map fieldText) ++ " \x7d)" := by
  rw [← fieldTexts_eq_map]
  cases fs with
  | nil => exact absurd rfl h
  | cons f fs => rfl

theorem pretty_object {fs : List (Text × Expr)} (h : fs ≠ []) : (object fs).pretty =
    "z.object(\x7b\n" ++ (fs.map fieldText).flatMap fieldLine ++ "\x7d)" := by
  rw [← fieldTexts_eq_map]
  cases fs with
  | nil => exact absurd rfl h
  | cons f fs => rfl

namespace CallsOn

variable {fs : List (Text × Expr)} {e : Expr} {calls : Text}

/-- Neither the object nor a call on it is a cast, which would stand in parentheses. -/
theorem receiver_eq (h : CallsOn fs e calls) (t : Text) : e.receiver t = t := by
  have hcast : e.isCast = false := by
    cases h with
    | object => rfl
    | method hm _ => exact isCast_method hm _
  rw [receiver, hcast, if_neg Bool.false_ne_true]

theorem object_occursIn (h : CallsOn fs e calls) : (Expr.object fs).OccursIn e := by
  induction h with
  | object => exact .root
  | method hm _ ih => exact .part (parts_method hm _ ▸ .head _) ih

theorem newline_not_mem (h : CallsOn fs e calls) : '\n' ∉ calls := by
  induction h with
  | object => exact List.not_mem_nil
  | method hm _ ih =>
    rw [List.mem_append, not_or]
    exact ⟨ih, newline_not_mem_method hm⟩

theorem text_eq (h : CallsOn fs e calls) (hne : fs ≠ []) :
    e.text = "z.object(\x7b " ++ Text.joinWith ", " (fs.map fieldText) ++ " \x7d)" ++ calls := by
  induction h with
  | object => rw [text_object hne, List.append_nil]
  | method hm h ih => rw [text_method hm, h.receiver_eq, ih, List.append_assoc]

theorem pretty_eq (h : CallsOn fs e calls) (hne : fs ≠ []) :
    e.pretty = "z.object(\x7b\n" ++ (fs.map fieldText).flatMap fieldLine ++ "\x7d)" ++ calls := by
  induction h with
  | object => rw [pretty_object hne, List.append_nil]
  | method hm h ih => rw [pretty_method hm, h.receiver_eq, ih, List.append_assoc]

/-- The lines of the object: the opening brace, the fields, and the closing brace with the calls. -/
theorem splitAt_pretty (h : CallsOn fs e calls) (hne : fs ≠ [])
    (hfields : ∀ f ∈ fs, '\n' ∉ fieldText f) : Text.splitAt '\n' e.pretty =
      "z.object(\x7b".toList :: (fs.map fun f => "  " ++ fieldText f ++ ",") ++
        ["\x7d)" ++ calls] := by
  have hlines : ∀ line ∈ "z.object(\x7b".toList :: (fs.map fun f => "  " ++ fieldText f ++ ","),
      '\n' ∉ line :=
    List.forall_mem_cons.mpr ⟨by decide, List.forall_mem_map.mpr fun f hf =>
      newline_not_mem_enclosed (hfields f hf) (by decide) (by decide)⟩
  have hlast : '\n' ∉ "\x7d)".toList ++ calls := by
    rw [List.mem_append, not_or]
    exact ⟨by decide, h.newline_not_mem⟩
  have hline : ∀ t : Text, fieldLine t = "  " ++ t ++ "," ++ ['\n'] := by
    intro t
    rw [List.append_assoc _ _ ['\n']]
    rfl
  have hpretty : e.pretty = ("z.object(\x7b".toList ::
      (fs.map fun f => "  " ++ fieldText f ++ ",")).flatMap (· ++ ['\n']) ++
        ("\x7d)".toList ++ calls) := by
    rw [h.pretty_eq hne, List.flatMap_cons, List.flatMap_map, List.flatMap_map, List.append_assoc]
    simp only [hline]
    rfl
  rw [hpretty, Text.splitAt_lines hlines, Text.splitAt_of_not_mem hlast]

end CallsOn

/-- Where no object with fields is called on, there is only one layout. -/
theorem pretty_eq_text {e : Expr} (h : ∀ fs calls, fs ≠ [] → ¬ CallsOn fs e calls) :
    e.pretty = e.text := by
  have hcall : ∀ {m : Text × (Expr → Expr)} (r : Expr), m ∈ methods → e = m.2 r →
      e.pretty = e.text := by
    rintro m r hm rfl
    have := sizeOf_lt_of_mem_parts (parts_method hm r ▸ .head [] : r ∈ (m.2 r).parts)
    have hr := pretty_eq_text fun fs calls hne hr => h fs _ hne (hr.method hm)
    rw [pretty_method hm, text_method hm, hr]
  cases e with
  | list r => exact hcall r list_mem_methods rfl
  | optional r => exact hcall r optional_mem_methods rfl
  | nullable r => exact hcall r nullable_mem_methods rfl
  | strict r => exact hcall r strict_mem_methods rfl
  | object fs =>
    cases fs with
    | nil => rfl
    | cons f fs => exact absurd .object (h (f :: fs) [] (List.cons_ne_nil f fs))
  | scalar s => rfl
  | ref ident => rfl
  | deferred e => rfl
  | cast e target => rfl
  | union es => rfl
  | enumeration values => rfl
termination_by sizeOf e

/-- **The two layouts**: an object with fields under method calls is written on one line, or with a
line for each field, in the same order and with the same texts; the calls are the same, and what
stands in a field is on one line in both. Every other expression has only one layout. -/
theorem pretty_layout (e : Expr) :
    let field := fun f : Text × Expr => f.1 ++ ": " ++ f.2.text
    (∀ fs calls, fs ≠ [] → CallsOn fs e calls →
      e.text = "z.object(\x7b " ++ Text.joinWith ", " (fs.map field) ++ " \x7d)" ++ calls ∧
      e.pretty = "z.object(\x7b\n" ++ (fs.flatMap fun f => ("  " ++ field f ++ ",\n" : Text)) ++
        "\x7d)" ++ calls ∧
      ((∀ name, IsNameIn name e → '\n' ∉ name) →
        Text.splitAt '\n' e.pretty = "z.object(\x7b".toList ::
          (fs.map fun f => "  " ++ field f ++ ",") ++ ["\x7d)" ++ calls] ∧
        (Text.splitAt '\n' e.pretty).length = fs.length + 2)) ∧
    ((∀ fs calls, fs ≠ [] → ¬ CallsOn fs e calls) → e.pretty = e.text) := by
  intro field
  have hfield : field = fieldText := by
    funext f
    rw [fieldText_eq, ← List.append_assoc]
  clear_value field
  subst hfield
  refine ⟨fun fs calls hne h => ⟨h.text_eq hne, ?_, fun hnames => ?_⟩, pretty_eq_text⟩
  · rw [h.pretty_eq hne, List.flatMap_map]
    rfl
  · have hfields : ∀ f ∈ fs, '\n' ∉ fieldText f := by
      intro f hf
      have hkey := hnames f.1 (.key h.object_occursIn hf)
      have hvalue : f.2.OccursIn e :=
        .trans (.part (List.mem_map_of_mem hf) .root) h.object_occursIn
      exact newline_not_mem_fieldText hkey
        (newline_not_mem_text fun name hname => hnames name (hname.occursIn hvalue))
    have hlines := h.splitAt_pretty hne hfields
    refine ⟨hlines, ?_⟩
    rw [hlines, List.length_append, List.length_cons, List.length_map, List.length_singleton]

/-- Reviews with their author and an object of their own; one value has a line feed in it. -/
def reviewFields : List (Text × Expr) :=
  [("author", .cast (.deferred (.ref "UserSchema")) "User"),
    ("place", .object [("page", .scalar .number), ("mark", .enumeration ["one\ntwo"])])]

def reviews : Expr := .list (.strict (.object reviewFields))

theorem reviews_layout : CallsOn reviewFields reviews (".strict()" ++ ".array()") ∧
    (∀ name, IsNameIn name reviews → '\n' ∉ name) ∧
    (Text.splitAt '\n' reviews.pretty).length = 4 := by
  have hcalls : CallsOn reviewFields reviews (".strict()" ++ ".array()") :=
    .method list_mem_methods (.method strict_mem_methods .object)
  have hnames : ∀ name, IsNameIn name reviews → '\n' ∉ name := by
    rintro name (h | h | @⟨fs, _, h, hkey⟩)
    · obtain rfl : name = "UserSchema".toList := by simpa [reviews, reviewFields] using h
      decide
    · obtain ⟨-, rfl⟩ : _ ∧ name = "User".toList := by simpa [reviews, reviewFields] using h
      decide
    · have hobject : fs = reviewFields ∨ fs = [("page".toList, scalar .number),
          ("mark".toList, enumeration ["one\ntwo".toList])] := by
        simpa [reviews, reviewFields] using h
      rcases hobject with rfl | rfl
      · rcases List.mem_pair.mp hkey with hkey | hkey <;> cases hkey <;> decide
      · rcases List.mem_pair.mp hkey with hkey | hkey <;> cases hkey <;> decide
  obtain ⟨-, -, hlines⟩ := (pretty_layout reviews).1 reviewFields _ (by decide) hcalls
  exact ⟨hcalls, hnames, (hlines hnames).2⟩

end QueryValidator.Zod.Expr
