import QueryValidator.Proofs.Text.Identifier
import QueryValidator.Proofs.Text.Join
import QueryValidator.Proofs.Text.Quoted
import QueryValidator.Proofs.Zod.Expr
import QueryValidator.Proofs.Zod.Reader

/-!
# The text of an expression is unambiguous

Reading the one-line text of a well-formed expression gives the expression back, so two of them
with one text are the same.

The induction is over expressions that have more text behind them. `Reads e` says that the reader
goes on with the suffixes behind `e` where the text of `e` ends; this is the form in which the
induction goes through, because the text of `e` may itself be the front of a longer chain of
suffixes.
-/

namespace QueryValidator.Zod.Expr

/-! ### Well-formed expressions -/

/-- The name of a type of the client, or of a list of such. -/
def IsTypeName (t : Text) : Prop :=
  ∃ name : Text, Text.isIdentifier name = true ∧ (t = name ∨ t = name ++ "[]")

/-- Names are identifiers, and no reference is taken for the validator of JSON. -/
inductive WellFormed : Expr → Prop
  | scalar (s : Scalar) : WellFormed (.scalar s)
  | ref {ident : Text} : Text.isIdentifier ident = true → ident ≠ jsonIdent →
      WellFormed (.ref ident)
  | deferred {e : Expr} : WellFormed e → WellFormed (.deferred e)
  | list {e : Expr} : WellFormed e → WellFormed (.list e)
  | optional {e : Expr} : WellFormed e → WellFormed (.optional e)
  | nullable {e : Expr} : WellFormed e → WellFormed (.nullable e)
  | cast {e : Expr} {target : Text} : WellFormed e → IsTypeName target →
      WellFormed (.cast e target)
  | union {es : List Expr} : (∀ e ∈ es, WellFormed e) → WellFormed (.union es)
  | object {fs : List (Text × Expr)} : (∀ f ∈ fs, Text.isIdentifier f.1 = true) →
      (∀ f ∈ fs, WellFormed f.2) → WellFormed (.object fs)
  | strict {e : Expr} : WellFormed e → WellFormed (.strict e)
  | enumeration (values : List Text) : WellFormed (.enumeration values)

theorem IsTypeName.no_close {t : Text} (h : IsTypeName t) : ∀ c ∈ t, (c != '>') = true := by
  obtain ⟨name, hid, ht⟩ := h
  have hname : '>' ∉ name := Text.not_mem_of_isIdentifier hid rfl
  intro c hc
  rw [bne_iff_ne]
  rintro rfl
  rcases ht with rfl | rfl
  · exact hname hc
  · rcases List.mem_append.mp hc with hc | hc
    · exact hname hc
    · exact absurd hc (by decide)

/-! ### What stands behind an expression -/

/-- What may stand behind a whole expression. -/
inductive Ends : Text → Prop
  | nil : Ends []
  | close (r : Text) : Ends (')' :: r)
  | comma (r : Text) : Ends (", " ++ r)
  | bracket (r : Text) : Ends ("])" ++ r)
  | brace (r : Text) : Ends (" \x7d)" ++ r)

/-- What may stand behind an expression: its end or a suffix. -/
inductive Follows : Text → Prop
  | ends {r : Text} : Ends r → Follows r
  | method {m : Text × (Expr → Expr)} (r : Text) : m ∈ methods → Follows (m.1 ++ r)
  | cast (r : Text) : Follows (castStart ++ r)

theorem Ends.readSuffix?_eq_none (e : Expr) {r : Text} (h : Ends r) : readSuffix? e r = none := by
  cases h <;> rfl

theorem Follows.endsName {r : Text} (h : Follows r) : Text.EndsName r := by
  have hdot : ∀ r, Text.EndsName ('.' :: r) := by
    rintro r c ⟨⟩
    decide
  cases h with
  | ends h => cases h <;> rintro c ⟨⟩ <;> decide
  | method r hm =>
    rcases eq_of_mem_methods hm with rfl | rfl | rfl | rfl <;> exact hdot _
  | cast r =>
    rintro c ⟨⟩
    decide

/-- What may stand behind a name is not the rest of a call of `z`. -/
theorem Follows.findCall_eq_none (item : Text → Option (Expr × Text)) {r : Text} (h : Follows r) :
    (calls item).findSome? (fun (start, read) => (Text.after? start r).map read) = none := by
  cases h with
  | ends h => cases h <;> rfl
  | method r hm =>
    rcases eq_of_mem_methods hm with rfl | rfl | rfl | rfl <;> rfl
  | cast r => rfl

/-! ### Suffixes -/

theorem readSuffixes_of_none {e : Expr} {t : Text} (h : readSuffix? e t = none) :
    readSuffixes e t = (e, t) := by
  rw [readSuffixes]
  split
  · next he => rw [h] at he; cases he
  · rfl

theorem readSuffixes_of_some {e e' : Expr} {t r : Text} (h : readSuffix? e t = some (e', r)) :
    readSuffixes e t = readSuffixes e' r := by
  rw [readSuffixes]
  split
  · next he => rw [h] at he; cases he; rfl
  · next he => rw [h] at he; cases he

theorem Ends.readSuffixes (e : Expr) {r : Text} (h : Ends r) : readSuffixes e r = (e, r) :=
  readSuffixes_of_none (h.readSuffix?_eq_none e)

theorem readSuffixes_method (e : Expr) {m : Text × (Expr → Expr)} (hm : m ∈ methods) (r : Text) :
    readSuffixes e (m.1 ++ r) = readSuffixes (m.2 e) r := by
  refine readSuffixes_of_some ?_
  rcases eq_of_mem_methods hm with rfl | rfl | rfl | rfl <;> rfl

theorem readSuffixes_cast (e : Expr) {target : Text} (ht : IsTypeName target) (r : Text) :
    readSuffixes e (castStart ++ (target ++ '>' :: r)) = readSuffixes (.cast e target) r := by
  refine readSuffixes_of_some ?_
  have hmethod : readMethod? e (castStart ++ (target ++ '>' :: r)) = none := rfl
  rw [readSuffix?, hmethod, Option.none_or, readCast?, Text.after?_append, Option.bind_some,
    List.dropWhile_append_of_pos ht.no_close, List.takeWhile_append_of_pos ht.no_close]
  simp

/-! ### Lists -/

section

variable {α : Type} {item : Text → Option (α × Text)} {print : α → Text} {stop rest : Text}

theorem readItems_join {xs : List α} {bound : Nat} (hne : xs ≠ []) (hbound : xs.length ≤ bound)
    (hitem : ∀ x ∈ xs, ∀ r, Ends r → item (print x ++ r) = some (x, r))
    (hends : Ends (stop ++ rest)) (hstop : Text.after? ", " (stop ++ rest) = none) :
    readItems item stop bound (Text.joinWith ", " (xs.map print) ++ (stop ++ rest)) =
      some (xs, rest) := by
  induction xs generalizing bound with
  | nil => exact absurd rfl hne
  | cons x xs ih =>
    obtain ⟨n, rfl⟩ : ∃ n, bound = n + 1 := ⟨bound - 1, by rw [List.length_cons] at hbound; omega⟩
    have hx := hitem x List.mem_cons_self
    cases xs with
    | nil =>
      rw [List.map_singleton, Text.joinWith_singleton, readItems, hx _ hends]
      simp only [Option.bind_eq_bind, Option.bind_some, hstop, Text.after?_append]
      rfl
    | cons y ys =>
      have hrest := ih (by simp) (Nat.le_of_succ_le_succ hbound)
        (fun z hz => hitem z (List.mem_cons_of_mem _ hz))
      rw [List.map_cons] at hrest
      rw [List.map_cons, List.map_cons, Text.joinWith_cons_cons, List.append_assoc,
        List.append_assoc, readItems, hx _ (Ends.comma _)]
      simp only [Option.bind_eq_bind, Option.bind_some, hrest, Text.after?_append]
      rfl

theorem readList_join {xs : List α}
    (hitem : ∀ x ∈ xs, ∀ r, Ends r → item (print x ++ r) = some (x, r))
    (hends : Ends (stop ++ rest)) (hstop : Text.after? ", " (stop ++ rest) = none)
    (hempty : item (stop ++ rest) = none) :
    readList item stop (Text.joinWith ", " (xs.map print) ++ (stop ++ rest)) =
      some (xs, rest) := by
  cases xs with
  | nil =>
    have hnone : ∀ n, readItems item stop n (stop ++ rest) = none := by
      intro n
      cases n with
      | zero => rfl
      | succ n => rw [readItems, hempty]; rfl
    unfold readList
    rw [List.map_nil, Text.joinWith, List.intercalate_nil, List.nil_append, hnone, Option.none_or,
      Text.after?_append]
    rfl
  | cons x xs =>
    have hcount := Text.count_le_joinWith ", " (by decide) ((x :: xs).map print)
    rw [List.length_map] at hcount
    unfold readList
    rw [readItems_join (by simp) _ hitem hends hstop, Option.some_or]
    rw [List.length_append]
    omega

end

/-! ### Heads -/

theorem readHead_name (item : Text → Option (Expr × Text)) {name r : Text}
    (hname : Text.isIdentifier name = true) (hr : Text.EndsName r) :
    readHead item (name ++ r) = readNamed item name r := by
  have hpart := Text.all_part_of_isIdentifier hname
  cases name with
  | nil => exact absurd hname (by decide)
  | cons c t =>
    have hparen : c ≠ '(' := by
      rintro rfl
      exact absurd (hpart '(' List.mem_cons_self) (by decide)
    rw [List.cons_append, readHead]
    · rw [← List.cons_append, Text.takeWhile_part hpart hr, Text.dropWhile_part hpart hr]
    · intro r' h
      exact hparen (List.cons_eq_cons.mp h).1

theorem readHead_scalar (item : Text → Option (Expr × Text)) (s : Scalar) {r : Text}
    (hr : Follows r) : readHead item (s.text ++ r) = some (.scalar s, r) := by
  by_cases hs : s = .json
  · subst hs
    exact readHead_name item (by decide) hr.endsName
  · cases s with
    | json => exact absurd rfl hs
    | _ => rfl

theorem readHead_ref (item : Text → Option (Expr × Text)) {ident r : Text}
    (hid : Text.isIdentifier ident = true) (hjson : ident ≠ jsonIdent) (hr : Follows r) :
    readHead item (ident ++ r) = some (.ref ident, r) := by
  rw [readHead_name item hid hr.endsName, readNamed, if_neg (Text.ne_nil_of_isIdentifier hid),
    if_neg hjson]
  split
  · next hz => rw [hr.findCall_eq_none, hz]; rfl
  · rfl

theorem readHead_lazy (item : Text → Option (Expr × Text)) (r : Text) :
    readHead item ("z.lazy(() => " ++ r) =
      (readClosed item ")" r).map fun (e, r) => (.deferred e, r) := rfl

theorem readHead_union (item : Text → Option (Expr × Text)) (r : Text) :
    readHead item ("z.union([" ++ r) =
      (readList item "])" r).map fun (es, r) => (.union es, r) := rfl

theorem readHead_object (item : Text → Option (Expr × Text)) (r : Text) :
    readHead item ("z.object(\x7b " ++ r) =
      (readList (readField item) " \x7d)" r).map fun (fs, r) => (.object fs, r) := rfl

theorem readHead_enum (item : Text → Option (Expr × Text)) (r : Text) :
    readHead item ("z.enum([" ++ r) =
      (readList readQuoted "])" r).map fun (vs, r) => (.enumeration vs, r) := rfl

/-! ### Items -/

theorem readField_fieldText {item : Text → Option (Expr × Text)} {f : Text × Expr} {r : Text}
    (hkey : Text.isIdentifier f.1 = true) (hitem : item (text f.2 ++ r) = some (f.2, r)) :
    readField item (fieldText f ++ r) = some (f, r) := by
  have htext : fieldText f ++ r = f.1 ++ (": " ++ (text f.2 ++ r)) := by
    rw [fieldText_eq, List.append_assoc, List.append_assoc]
  have hcolon : Text.EndsName (": " ++ (text f.2 ++ r)) := by
    rintro c ⟨⟩
    decide
  have hpart := Text.all_part_of_isIdentifier hkey
  rw [htext, readField, Text.takeWhile_part hpart hcolon, Text.dropWhile_part hpart hcolon]
  simp only [Option.bind_eq_bind, Option.bind_some, Text.after?_append, hitem]
  rfl

theorem readQuoted_quoted (t r : Text) : readQuoted (Text.quoted t ++ r) = some (t, r) := by
  rw [Text.quoted, List.cons_append, List.append_assoc, readQuoted]
  show (Json.readString (t.flatMap Text.escaped ++ '"' :: r)).toOption = _
  rw [Json.readString_quoted]
  rfl

/-! ### Reading an expression where more text follows -/

/-- Where the text of `e` ends the reader goes on with the suffixes behind it. -/
def Reads (e : Expr) : Prop :=
  ∀ n rest, (text e).length ≤ n → Follows rest →
    readExpr n (text e ++ rest) = some (readSuffixes e rest)

theorem readExpr_of_readHead {e : Expr} {n : Nat} {t r : Text}
    (h : readHead (readExpr n) t = some (e, r)) : readExpr (n + 1) t = some (readSuffixes e r) := by
  rw [readExpr, h]
  rfl

theorem Reads.of_readHead {e : Expr} (hne : text e ≠ [])
    (h : ∀ n rest, (text e).length ≤ n + 1 → Follows rest →
      readHead (readExpr n) (text e ++ rest) = some (e, rest)) : Reads e := by
  intro n rest hn hr
  have hpos := List.length_pos_iff.mpr hne
  obtain ⟨m, rfl⟩ : ∃ m, n = m + 1 := ⟨n - 1, by omega⟩
  exact readExpr_of_readHead (h m rest hn hr)

theorem Reads.ends {e : Expr} (h : Reads e) {n : Nat} {r : Text} (hn : (text e).length ≤ n)
    (hr : Ends r) : readExpr n (text e ++ r) = some (e, r) := by
  rw [h n r hn (.ends hr), hr.readSuffixes]

theorem Reads.closed {e : Expr} (h : Reads e) {n : Nat} (hn : (text e).length ≤ n) (r : Text) :
    readClosed (readExpr n) ")" (text e ++ ')' :: r) = some (e, r) := by
  rw [readClosed, h.ends hn (.close r)]
  rfl

/-- As a receiver a cast is read between parentheses, so what stands behind it belongs to all of it.
-/
theorem Reads.receiver {e : Expr} (h : Reads e) {n : Nat} {r : Text}
    (hn : (receiver e (text e)).length ≤ n) (hr : Follows r) :
    readExpr n (receiver e (text e) ++ r) = some (readSuffixes e r) := by
  unfold Expr.receiver at hn ⊢
  split at hn
  · next hc =>
    have htext : "(" ++ text e ++ ")" ++ r = '(' :: (text e ++ ')' :: r) := by simp
    rw [List.length_append, List.length_append] at hn
    rw [if_pos hc, htext]
    cases n with
    | zero => exact absurd hn (by simp)
    | succ n =>
      refine readExpr_of_readHead ?_
      rw [readHead]
      refine h.closed ?_ r
      have hone : "(".toList.length = 1 := rfl
      omega
  · next hc =>
    rw [if_neg hc]
    exact h n r hn hr

theorem Reads.method {e : Expr} (h : Reads e) {m : Text × (Expr → Expr)} (hm : m ∈ methods) :
    Reads (m.2 e) := by
  intro n rest hn hr
  rw [text_method hm, List.length_append] at hn
  rw [text_method hm, List.append_assoc, h.receiver (by omega) (.method rest hm)]
  exact congrArg some (readSuffixes_method e hm rest)

theorem Reads.cast {e : Expr} (h : Reads e) {target : Text} (ht : IsTypeName target) :
    Reads (.cast e target) := by
  intro n rest hn hr
  have htext : text (.cast e target) = text e ++ (castStart ++ target ++ ">") := by
    rw [← List.append_assoc, ← List.append_assoc]
    rfl
  rw [htext, List.length_append] at hn
  rw [htext, List.append_assoc, List.append_assoc, List.append_assoc]
  exact (h n _ (by omega) (.cast _)).trans (congrArg some (readSuffixes_cast e ht rest))

/-- An expression that begins with a call of `z`, of which the rest is read one level deeper. -/
theorem Reads.of_call {e : Expr} {start body : Text} (hstart : start ≠ [])
    (htext : text e = start ++ body)
    (h : ∀ n rest, body.length ≤ n →
      readHead (readExpr n) (start ++ (body ++ rest)) = some (e, rest)) : Reads e := by
  have hpos := List.length_pos_iff.mpr hstart
  refine .of_readHead ?_ ?_
  · rw [htext]
    exact List.append_ne_nil_of_left_ne_nil hstart body
  · intro n rest hn _
    rw [htext, List.length_append] at hn
    rw [htext, List.append_assoc]
    exact h n rest (by omega)

theorem Reads.deferred {e : Expr} (h : Reads e) : Reads (.deferred e) := by
  have htext : text (.deferred e) = "z.lazy(() => " ++ (text e ++ ")") := by
    rw [← List.append_assoc]
    rfl
  refine .of_call (by decide) htext ?_
  intro n rest hn
  rw [List.length_append] at hn
  rw [List.append_assoc, readHead_lazy]
  exact congrArg (Option.map _) (h.closed (by omega) rest)

theorem Reads.union {es : List Expr} (h : ∀ e ∈ es, Reads e) : Reads (.union es) := by
  have htext : text (.union es) =
      "z.union([" ++ (Text.joinWith ", " (es.map text) ++ "])") := by
    show "z.union(" ++ bracketed (texts es) ++ ")" = _
    rw [texts_eq_map, bracketed]
    simp only [List.append_assoc]
    rfl
  refine .of_call (by decide) htext ?_
  intro n rest hn
  rw [List.length_append] at hn
  have hitem : ∀ e ∈ es, ∀ r, Ends r → readExpr n (text e ++ r) = some (e, r) := by
    intro e he r hr
    have hlen := Text.length_le_joinWith ", " (List.mem_map_of_mem (f := text) he)
    exact (h e he).ends (by omega) hr
  have hempty : readExpr n ("])" ++ rest) = none := by
    cases n <;> rfl
  rw [List.append_assoc, readHead_union, readList_join hitem (.bracket rest) rfl hempty]
  rfl

theorem Reads.object {fs : List (Text × Expr)}
    (hkeys : ∀ f ∈ fs, Text.isIdentifier f.1 = true) (h : ∀ f ∈ fs, Reads f.2) :
    Reads (.object fs) := by
  cases fs with
  | nil => exact .of_readHead (List.cons_ne_nil _ _) fun _ _ _ _ => rfl
  | cons f fs =>
    have htext : text (.object (f :: fs)) =
        "z.object(\x7b " ++ (Text.joinWith ", " ((f :: fs).map fieldText) ++ " \x7d)") := by
      rw [← fieldTexts_eq_map, ← List.append_assoc]
      rfl
    refine .of_call (by decide) htext ?_
    intro n rest hn
    rw [List.length_append] at hn
    have hitem : ∀ g ∈ f :: fs, ∀ r, Ends r →
        readField (readExpr n) (fieldText g ++ r) = some (g, r) := by
      intro g hg r hr
      have hlen := Text.length_le_joinWith ", " (List.mem_map_of_mem (f := fieldText) hg)
      rw [fieldText_eq, List.length_append, List.length_append] at hlen
      exact readField_fieldText (hkeys g hg) ((h g hg).ends (by omega) hr)
    rw [List.append_assoc, readHead_object, readList_join hitem (.brace rest) rfl rfl]
    rfl

theorem Reads.enumeration (values : List Text) : Reads (.enumeration values) := by
  have htext : text (.enumeration values) =
      "z.enum([" ++ (Text.joinWith ", " (values.map Text.quoted) ++ "])") := by
    show "z.enum(" ++ bracketed (values.map Text.quoted) ++ ")" = _
    rw [bracketed]
    simp only [List.append_assoc]
    rfl
  refine .of_call (by decide) htext ?_
  intro n rest _
  rw [List.append_assoc, readHead_enum,
    readList_join (fun v _ r _ => readQuoted_quoted v r) (.bracket rest) rfl rfl]
  rfl

/-! ### Well-formed expressions are read -/

theorem WellFormed.reads {e : Expr} (h : WellFormed e) : Reads e := by
  induction h with
  | scalar s =>
    refine .of_readHead ?_ fun _ _ _ hr => readHead_scalar _ s hr
    cases s <;> exact List.cons_ne_nil _ _
  | ref hid hjson =>
    exact .of_readHead (Text.ne_nil_of_isIdentifier hid) fun _ _ _ hr =>
      readHead_ref _ hid hjson hr
  | deferred _ ih => exact ih.deferred
  | list _ ih => exact ih.method list_mem_methods
  | optional _ ih => exact ih.method optional_mem_methods
  | nullable _ ih => exact ih.method nullable_mem_methods
  | cast _ ht ih => exact ih.cast ht
  | union _ ih => exact .union ih
  | object hkeys _ ih => exact .object hkeys ih
  | strict _ ih => exact ih.method strict_mem_methods
  | enumeration values => exact .enumeration values

theorem ofText?_text {e : Expr} (h : WellFormed e) : ofText? (text e) = some e := by
  have hread := h.reads.ends (Nat.le_refl _) .nil
  rw [List.append_nil] at hread
  rw [ofText?, hread]

/-- **Rendering is unambiguous**: the reader takes the text of a well-formed expression back to it,
and two well-formed expressions with one text are equal. -/
theorem text_unambiguous {e₁ e₂ : Expr} (h₁ : WellFormed e₁) (h₂ : WellFormed e₂) :
    (ofText? (text e₁) = some e₁ ∧ ofText? (text e₂) = some e₂) ∧
      (text e₁ = text e₂ → e₁ = e₂) := by
  refine ⟨⟨ofText?_text h₁, ofText?_text h₂⟩, ?_⟩
  intro htext
  have hread := ofText?_text h₁
  rw [htext, ofText?_text h₂] at hread
  exact (Option.some.inj hread).symm

/-- A cast of a list and a list of casts are told apart by the parentheses alone. -/
theorem text_list_cast_ne_cast_list :
    ofText? "(Post as z.ZodType<Prisma.Post[]>).array()" =
        some (.list (.cast (.ref "Post") "Post[]")) ∧
      text (.list (.cast (.ref "Post") "Post[]")) ≠
        text (.cast (.list (.ref "Post")) "Post[]") := by
  have hpost : WellFormed (.ref "Post") := .ref (by decide) (by decide)
  have htarget : IsTypeName "Post[]" := ⟨"Post", by decide, Or.inr rfl⟩
  obtain ⟨⟨hread, -⟩, hinj⟩ :=
    text_unambiguous (.list (.cast hpost htarget)) (.cast (.list hpost) htarget)
  exact ⟨hread, fun h => Expr.noConfusion (hinj h)⟩

end QueryValidator.Zod.Expr
