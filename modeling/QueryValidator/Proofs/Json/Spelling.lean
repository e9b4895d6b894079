import QueryValidator.Proofs.Json.Written

/-!
# How a value is spelled

`Spelled` tells what stands at the front of a text that a value is read from, by the first
character; `Items` and `Members` tell it of the inside of an array and of an object, one element or
member after the other.  By induction on them, a value that can be read can be passed over, and the
same text is left (`skip_of_written`).
-/

namespace QueryValidator.Json

/-- The elements of an array and its bracket at the front of a text, each element as `item` reads
it, and what is left. -/
inductive Items {α : Type} (item : Text → Except Fault (α × Text)) :
    (bound : Nat) → (first : Bool) → Text → List α → Text → Prop
  | done {n first t r} (hnext : nextElement first t = .ok none) (hclose : closeArray t = .ok r) :
      Items item (n + 1) first t [] r
  | more {n first t q x u xs r} (hnext : nextElement first t = .ok (some q))
      (hitem : item q = .ok (x, u)) (hrest : Items item n false u xs r) :
      Items item (n + 1) first t (x :: xs) r

/-- The members of an object and its brace at the front of a text, each value as `value` reads it,
and what is left. -/
inductive Members (value : Text → Except Fault (Json × Text)) :
    (bound : Nat) → (first : Bool) → Text → List (Text × Json) → Text → Prop
  | done {n first t r} (hnext : nextKey first t = .ok none) (hclose : closeObject t = .ok r) :
      Members value (n + 1) first t [] r
  | more {n first t q key u p v s es r} (hnext : nextKey first t = .ok (some q))
      (hkey : readString q = .ok (key, u)) (hcolon : colon u = .ok p)
      (hvalue : value p = .ok (v, s)) (hrest : Members value n false s es r) :
      Members value (n + 1) first t ((key, v) :: es) r

/-- The value at the front of a text without blanks before it, and what is left. -/
inductive Spelled (bound : Nat) : (levels : Nat) → Text → Json → Text → Prop
  | null {levels q r} (h : word "ull" q = .ok r) : Spelled bound levels ('n' :: q) .null r
  | true {levels q r} (h : word "rue" q = .ok r) : Spelled bound levels ('t' :: q) (.bool true) r
  | false {levels q r} (h : word "alse" q = .ok r) : Spelled bound levels ('f' :: q) (.bool false) r
  | negative {levels q x r} (h : readNumber true q = .ok (x, r)) :
      Spelled bound levels ('-' :: q) (.number x) r
  | string {levels q s r} (h : readString q = .ok (s, r)) :
      Spelled bound levels ('"' :: q) (.string s) r
  | array {n q vs r} (h : elements (written bound n) bound true q = .ok (vs, r)) :
      Spelled bound (n + 1) ('[' :: q) (.array vs) r
  | object {n q es r} (h : entries (written bound n) bound true q = .ok (es, r)) :
      Spelled bound (n + 1) ('{' :: q) (.object es) r
  | digits {levels c q x r} (hdigit : c.isDigit = true)
      (h : readNumber false (c :: q) = .ok (x, r)) :
      Spelled bound levels (c :: q) (.number x) r

/-- A digit begins a number and nothing else. -/
theorem ne_of_isDigit {c : Char} (h : c.isDigit = true) :
    c ≠ 'n' ∧ c ≠ 't' ∧ c ≠ 'f' ∧ c ≠ '-' ∧ c ≠ '"' ∧ c ≠ '[' ∧ c ≠ '{' := by
  refine ⟨?_, ?_, ?_, ?_, ?_, ?_, ?_⟩ <;> rintro rfl <;> exact absurd h (by decide)

theorem cons_ne_of_isDigit {c d : Char} {q r : Text} (h : c.isDigit = true)
    (hd : d.isDigit = false) : c :: q ≠ d :: r := by
  rintro heq
  cases heq
  exact absurd h (Bool.eq_false_iff.mp hd)

theorem items_of_elements {α : Type} {item : Text → Except Fault (α × Text)} {bound : Nat}
    {first : Bool} {t r : Text} {xs : List α} (h : elements item bound first t = .ok (xs, r)) :
    Items item bound first t xs r := by
  induction bound generalizing first t xs with
  | zero => cases h
  | succ n ih =>
    obtain ⟨next, hnext, h⟩ := Except.bind_eq_ok_iff.mp h
    cases next with
    | none =>
      obtain ⟨r', hclose, heq⟩ := Except.bind_eq_ok_iff.mp h
      cases heq
      exact .done hnext hclose
    | some q =>
      obtain ⟨⟨x, u⟩, hitem, h⟩ := Except.bind_eq_ok_iff.mp h
      obtain ⟨⟨xs', r'⟩, hrest, heq⟩ := Except.bind_eq_ok_iff.mp h
      cases heq
      exact .more hnext hitem (ih hrest)

theorem members_of_entries {value : Text → Except Fault (Json × Text)} {bound : Nat} {first : Bool}
    {t r : Text} {es : List (Text × Json)} (h : entries value bound first t = .ok (es, r)) :
    Members value bound first t es r := by
  induction bound generalizing first t es with
  | zero => cases h
  | succ n ih =>
    obtain ⟨next, hnext, h⟩ := Except.bind_eq_ok_iff.mp h
    cases next with
    | none =>
      obtain ⟨r', hclose, heq⟩ := Except.bind_eq_ok_iff.mp h
      cases heq
      exact .done hnext hclose
    | some q =>
      obtain ⟨⟨key, u⟩, hkey, h⟩ := Except.bind_eq_ok_iff.mp h
      obtain ⟨p, hcolon, h⟩ := Except.bind_eq_ok_iff.mp h
      obtain ⟨⟨v, s⟩, hvalue, h⟩ := Except.bind_eq_ok_iff.mp h
      obtain ⟨⟨es', r'⟩, hrest, heq⟩ := Except.bind_eq_ok_iff.mp h
      cases heq
      exact .more hnext hkey hcolon hvalue (ih hrest)

theorem spelled_of_written {bound levels : Nat} {t r : Text} {w : Json}
    (h : written bound levels t = .ok (w, r)) : Spelled bound levels (skipBlanks t) w r := by
  unfold written at h
  generalize skipBlanks t = u at h ⊢
  split at h
  · cases h
  · obtain ⟨q, hq, heq⟩ := Except.map_eq_ok_iff.mp h
    cases heq
    exact .null hq
  · obtain ⟨q, hq, heq⟩ := Except.map_eq_ok_iff.mp h
    cases heq
    exact .true hq
  · obtain ⟨q, hq, heq⟩ := Except.map_eq_ok_iff.mp h
    cases heq
    exact .false hq
  · obtain ⟨q, hq, heq⟩ := Except.map_eq_ok_iff.mp h
    cases heq
    exact .negative hq
  · obtain ⟨q, hq, heq⟩ := Except.map_eq_ok_iff.mp h
    cases heq
    exact .string hq
  · cases levels with
    | zero => cases h
    | succ n =>
      obtain ⟨q, hq, heq⟩ := Except.map_eq_ok_iff.mp h
      cases heq
      exact .array hq
  · cases levels with
    | zero => cases h
    | succ n =>
      obtain ⟨q, hq, heq⟩ := Except.map_eq_ok_iff.mp h
      cases heq
      exact .object hq
  · split_ifs at h with hdigit
    · obtain ⟨q, hq, heq⟩ := Except.map_eq_ok_iff.mp h
      cases heq
      exact .digits hdigit hq

/-! ### What is left is shorter -/

theorem Items.length_lt {α : Type} {item : Text → Except Fault (α × Text)} {bound : Nat}
    {first : Bool} {t r : Text} {xs : List α} (h : Items item bound first t xs r)
    (hitem : ∀ {q x u}, item q = .ok (x, u) → u.length < q.length) : r.length < t.length := by
  induction h with
  | done hnext hclose => exact length_closeArray_lt hclose
  | more hnext hx hrest ih => exact ih.trans ((hitem hx).trans_le (length_nextElement_le hnext))

/-- The value of a member stands behind its key and colon. -/
theorem length_member_lt {first : Bool} {t q u p : Text} {key : Text}
    (hnext : nextKey first t = .ok (some q)) (hkey : readString q = .ok (key, u))
    (hcolon : colon u = .ok p) : p.length < t.length :=
  calc p.length < u.length := length_colon_lt hcolon
    _ < q.length := length_readString_lt hkey
    _ < t.length := length_nextKey_lt hnext

theorem Members.length_lt {value : Text → Except Fault (Json × Text)} {bound : Nat} {first : Bool}
    {t r : Text} {es : List (Text × Json)} (h : Members value bound first t es r)
    (hvalue : ∀ {p v s}, value p = .ok (v, s) → s.length < p.length) : r.length < t.length := by
  induction h with
  | done hnext hclose => exact length_closeObject_lt hclose
  | more hnext hkey hcolon hv hrest ih =>
    exact ih.trans ((hvalue hv).trans (length_member_lt hnext hkey hcolon))

theorem length_written_lt {bound levels : Nat} {t r : Text} {w : Json}
    (h : written bound levels t = .ok (w, r)) : r.length < t.length := by
  induction levels using Nat.strongRecOn generalizing t r w with
  | ind levels ih =>
    have hspelled := spelled_of_written h
    refine lt_of_lt_of_le ?_ (length_skipBlanks_le t)
    generalize skipBlanks t = u at hspelled ⊢
    cases hspelled with
    | null hq | true hq | false hq => exact Nat.lt_succ_of_le (length_word_le hq)
    | negative hq => exact (length_readNumber_lt hq).trans (Nat.lt_succ_self _)
    | string hq => exact (length_readString_lt hq).trans (Nat.lt_succ_self _)
    | array hq =>
      have hitems := items_of_elements hq
      exact (hitems.length_lt (ih _ (Nat.lt_succ_self _))).trans (Nat.lt_succ_self _)
    | object hq =>
      have hmembers := members_of_entries hq
      exact (hmembers.length_lt (ih _ (Nat.lt_succ_self _))).trans (Nat.lt_succ_self _)
    | digits hdigit hq => exact length_readNumber_lt hq

/-! ### Passing over a value -/

section

variable {bound m : Nat} {first : Bool} {t r : Text}

theorem skipUpTo_congr {t' : Text} (h : skipBlanks t' = skipBlanks t) :
    skipUpTo bound m t' = skipUpTo bound m t := by
  unfold skipUpTo
  rw [h]

/-- After a comma an element that is passed over may still have blanks before it, so `skipItem` is
asked about every text that differs in blanks only. -/
theorem Items.skipElements_eq {α : Type} {item : Text → Except Fault (α × Text)}
    {skipItem : Text → Except Fault Text} {xs : List α} (h : Items item bound first t xs r)
    (hm : t.length ≤ m) (hlength : ∀ {q x u}, item q = .ok (x, u) → u.length < q.length)
    (hskip : ∀ {q q' x u}, item q = .ok (x, u) → q.length ≤ m → skipBlanks q' = skipBlanks q →
      skipItem q' = .ok u) :
    skipUpTo.skipElements skipItem bound first t = .ok r := by
  induction h with
  | done hnext hclose =>
    unfold skipUpTo.skipElements
    rw [nextSkipped_of_none hnext]
    exact hclose
  | more hnext hitem hrest ih =>
    obtain ⟨q', hnext', hblanks⟩ := nextSkipped_of_some hnext
    have hq := (length_nextElement_le hnext).trans hm
    unfold skipUpTo.skipElements
    rw [hnext']
    show (skipItem q' >>= _) = _
    rw [hskip hitem hq hblanks]
    exact ih ((hlength hitem).le.trans hq)

theorem Members.skipMembers_eq {value : Text → Except Fault (Json × Text)}
    {skipValue : Text → Except Fault Text} {es : List (Text × Json)}
    (h : Members value bound first t es r) (hm : t.length ≤ m)
    (hlength : ∀ {p v s}, value p = .ok (v, s) → s.length < p.length)
    (hskip : ∀ {p v s}, value p = .ok (v, s) → p.length ≤ m → skipValue p = .ok s) :
    skipUpTo.skipMembers skipValue bound first t = .ok r := by
  induction h with
  | done hnext hclose =>
    unfold skipUpTo.skipMembers
    rw [nextSkippedKey_of_nextKey hnext]
    exact hclose
  | more hnext hkey hcolon hvalue hrest ih =>
    have hp := (length_member_lt hnext hkey hcolon).le.trans hm
    unfold skipUpTo.skipMembers
    rw [nextSkippedKey_of_nextKey hnext]
    show (skipString _ >>= _) = _
    rw [skipString_of_readString hkey]
    show (colon _ >>= _) = _
    rw [hcolon]
    show (skipValue _ >>= _) = _
    rw [hskip hvalue hp]
    exact ih ((hlength hvalue).le.trans hp)

/-- A value that can be read is passed over with as many levels as its text is long. -/
theorem skipUpTo_of_written {levels : Nat} {w : Json} (h : written bound levels t = .ok (w, r))
    (hm : t.length ≤ m) : skipUpTo bound m t = .ok r := by
  induction levels using Nat.strongRecOn generalizing m t r w with
  | ind levels ih =>
    have hspelled := spelled_of_written h
    have hlength := (length_skipBlanks_le t).trans hm
    unfold skipUpTo
    generalize skipBlanks t = u at hspelled hlength ⊢
    cases hspelled with
    | null hq | true hq | false hq => exact hq
    | negative hq => exact skipNumber_of_readNumber hq
    | string hq => exact skipString_of_readString hq
    | array hq =>
      obtain ⟨m', rfl⟩ := Nat.exists_eq_add_one.mpr (Nat.zero_lt_of_lt hlength)
      refine (items_of_elements hq).skipElements_eq (Nat.le_of_succ_le_succ hlength)
        length_written_lt ?_
      intro q q' x u hitem hle hblanks
      rw [skipUpTo_congr hblanks]
      exact ih _ (Nat.lt_succ_self _) hitem hle
    | object hq =>
      obtain ⟨m', rfl⟩ := Nat.exists_eq_add_one.mpr (Nat.zero_lt_of_lt hlength)
      exact (members_of_entries hq).skipMembers_eq (Nat.le_of_succ_le_succ hlength)
        length_written_lt (ih _ (Nat.lt_succ_self _))
    | digits hdigit hq =>
      obtain ⟨hn, ht, hf, hminus, hquote, hopen, hbrace⟩ := ne_of_isDigit hdigit
      simp only [if_pos hdigit]
      exact skipNumber_of_readNumber hq

theorem skip_of_written {levels : Nat} {w : Json} (h : written bound levels t = .ok (w, r))
    (hbound : t.length ≤ bound) : skip bound t = .ok r :=
  skipUpTo_of_written h hbound

end

end QueryValidator.Json
