import QueryValidator.Json.Read
import QueryValidator.Proofs.Steps
import Mathlib.Data.List.DropRight

/-!
# What is left after a token

A string or number that is passed over leaves the same text as one that is read, and so does what
stands between the elements of an array or the members of an object. What is left is shorter, or no
longer where the token may be empty.
-/

namespace QueryValidator.Json

variable {t r : Text} {first : Bool}

/-! ### Blanks and words -/

theorem length_skipBlanks_le (t : Text) : (skipBlanks t).length ≤ t.length :=
  List.length_dropWhile_le _ _

theorem length_lt_of_skipBlanks {c : Char} (h : skipBlanks t = c :: r) : r.length < t.length := by
  have hle := length_skipBlanks_le t
  rw [h] at hle
  exact hle

theorem skipBlanks_skipBlanks (t : Text) : skipBlanks (skipBlanks t) = skipBlanks t :=
  List.dropWhile_idempotent _ _

theorem length_word_le {letters : Text} (h : word letters t = .ok r) : r.length ≤ t.length := by
  fun_induction word letters t with
  | case1 t =>
    cases h
    exact le_refl _
  | case2 => cases h
  | case3 e es q ih => exact (ih h).trans (Nat.le_succ _)
  | case4 => cases h

/-! ### Strings -/

theorem length_skipStringFrom_lt {state : StringState} (h : skipStringFrom state t = .ok r) :
    r.length < t.length := by
  have hstep : ∀ {q : Text} {c : Char}, r.length < q.length → r.length < (c :: q).length :=
    fun hq => hq.trans (Nat.lt_succ_self _)
  fun_induction skipStringFrom state t with
  | case1 => cases h
  | case2 q hfour ih => exact hstep (ih h)
  | case3 => cases h
  | case4 c q hu hshort ih => exact hstep (ih h)
  | case5 => cases h
  | case6 => cases h
  | case7 _ _ c q hhex left ih => exact hstep (ih h)
  | case8 _ _ c q hhex ih => exact hstep (ih h)
  | case9 =>
    cases h
    exact Nat.lt_succ_self _
  | case10 _ q _ _ hquote ih => exact hstep (ih h)
  | case11 => cases h
  | case12 _ c q _ _ hquote hslash hcontrol ih => exact hstep (ih h)

/-- Where the reader of a string that is passed over stands: it does not tell the second half of a
pair of escapes from other escapes. -/
def StringState.skimmed : StringState → StringState
  | .plain => .plain
  | .escape => .escape
  | .hex left _ _ => .hex left 0 none
  | .lowSlash _ => .plain
  | .lowLetter _ => .escape

/-- One character more in front of a string does not change what is left. -/
theorem rest_of_map {x : Except Fault (Text × Text)} {c : Char} {s : Text}
    (h : (x.map fun (s, rest) => (c :: s, rest)) = .ok (s, r)) : ∃ s', x = .ok (s', r) := by
  obtain ⟨⟨s', r'⟩, hx, heq⟩ := Except.map_eq_ok_iff.mp h
  cases heq
  exact ⟨s', hx⟩

theorem skipStringFrom_of_stringFrom {state : StringState} {s : Text}
    (h : stringFrom state t = .ok (s, r)) : skipStringFrom state.skimmed t = .ok r := by
  fun_induction stringFrom state t generalizing s with
  | case2 =>
    cases h
    rfl
  | case5 c q hquote hslash hcontrol ih =>
    obtain ⟨s', hs⟩ := rest_of_map h
    have hrest : skipStringFrom .plain q = .ok r := ih hs
    simp [StringState.skimmed, skipStringFrom, hquote, hslash, hcontrol, hrest]
  | case8 c q hu x hx ih =>
    obtain ⟨s', hs⟩ := rest_of_map h
    have hrest : skipStringFrom .plain q = .ok r := ih hs
    simp [StringState.skimmed, skipStringFrom, hu, hx, hrest]
  | case14 =>
    rename_i q _ hd _ _ _ ih
    obtain ⟨s', hs⟩ := rest_of_map h
    have hrest : skipStringFrom .plain q = .ok r := ih hs
    simp [StringState.skimmed, skipStringFrom, hd, hrest]
  | case15 =>
    rename_i q _ hd _ _ _ _ ih
    obtain ⟨s', hs⟩ := rest_of_map h
    have hrest : skipStringFrom .plain q = .ok r := ih hs
    simp [StringState.skimmed, skipStringFrom, hd, hrest]
  | _ => simp_all [StringState.skimmed, skipStringFrom]

theorem skipString_of_readString {s : Text} (h : readString t = .ok (s, r)) :
    skipString t = .ok r :=
  skipStringFrom_of_stringFrom h

theorem length_readString_lt {s : Text} (h : readString t = .ok (s, r)) : r.length < t.length :=
  length_skipStringFrom_lt (skipString_of_readString h)

/-! ### Numbers -/

theorem skipDigits_cons {c : Char} {q : Text} (hc : c.isDigit = true) :
    skipDigits (c :: q) = .ok (q.dropWhile Char.isDigit) := by
  simp [skipDigits, hc]

theorem length_skipDigits_lt (h : skipDigits t = .ok r) : r.length < t.length := by
  unfold skipDigits at h
  split at h
  · next hdigit =>
    cases h
    cases t with
    | nil => cases hdigit
    | cons c q =>
      have hc : c.isDigit = true := by simpa using hdigit
      rw [List.dropWhile_cons_of_pos hc]
      exact Nat.lt_succ_of_le (List.length_dropWhile_le _ _)
  · cases h

theorem length_skipExponent_lt (h : skipExponent t = .ok r) : r.length < t.length := by
  unfold skipExponent at h
  split at h
  · exact (length_skipDigits_lt h).trans (Nat.lt_succ_self _)
  · exact (length_skipDigits_lt h).trans (Nat.lt_succ_self _)
  · exact length_skipDigits_lt h

theorem length_skipTail_le (h : skipTail t = .ok r) : r.length ≤ t.length := by
  unfold skipTail at h
  split at h
  · exact (length_skipExponent_lt h).le.trans (Nat.le_succ _)
  · exact (length_skipExponent_lt h).le.trans (Nat.le_succ _)
  · cases h
    exact le_refl _

theorem skipTail_eq_self (he : ∀ q, t = 'e' :: q → False) (hE : ∀ q, t = 'E' :: q → False) :
    skipTail t = .ok t := by
  unfold skipTail
  split
  · exact absurd rfl (he _)
  · exact absurd rfl (hE _)
  · rfl

theorem length_skipNumber_lt (h : skipNumber t = .ok r) : r.length < t.length := by
  obtain ⟨rest, hrest, h⟩ := Except.bind_eq_ok_iff.mp h
  have hlt := length_skipDigits_lt hrest
  split at h
  · cases h
  · split at h
    · obtain ⟨q, hq, htail⟩ := Except.bind_eq_ok_iff.mp h
      have hfraction := length_skipDigits_lt hq
      have hle := length_skipTail_le htail
      simp only [List.length_cons] at hlt
      omega
    · exact (length_skipTail_le h).trans_lt hlt

variable {negative : Bool} {x : JsonNumber}

theorem rest_of_paired {y : Except Fault JsonNumber} {q : Text}
    (h : y.map (·, q) = .ok (x, r)) : q = r := by
  obtain ⟨_, -, heq⟩ := Except.map_eq_ok_iff.mp h
  exact congrArg Prod.snd heq

theorem skipExponent_of_exponentPart {significand : Nat} {start : Int}
    (h : exponentPart negative significand start t = .ok (x, r)) : skipExponent t = .ok r := by
  unfold exponentPart at h
  split at h
  next down body hsign =>
    have hskip : skipExponent t = skipDigits body := by
      unfold skipExponent
      split at hsign <;> cases hsign <;> rfl
    rw [hskip]
    cases body with
    | nil => cases h
    | cons c q =>
      by_cases hc : c.isDigit = true
      · simp only [hc, List.dropWhile_cons_of_pos] at h
        rw [skipDigits_cons hc]
        split_ifs at h
        · exact congrArg Except.ok (rest_of_paired h)
        · exact congrArg Except.ok (rest_of_paired h)
        · cases h
          rfl
      · simp [hc] at h

theorem skipTail_of_fractionPart {significand : Nat} {start : Int}
    (h : fractionPart negative significand start t = .ok (x, r)) :
    ∃ q, skipDigits t = .ok q ∧ skipTail q = .ok r := by
  unfold fractionPart at h
  cases t with
  | nil => cases h
  | cons c q =>
    by_cases hc : c.isDigit = true
    · refine ⟨q.dropWhile Char.isDigit, skipDigits_cons hc, ?_⟩
      simp only [hc, List.takeWhile_cons_of_pos, List.dropWhile_cons_of_pos, List.isEmpty_cons,
        Bool.false_eq_true, if_false] at h
      generalize q.dropWhile Char.isDigit = rest at h ⊢
      split at h
      · exact skipExponent_of_exponentPart h
      · exact skipExponent_of_exponentPart h
      · next he hE => exact (skipTail_eq_self he hE).trans (congrArg Except.ok (rest_of_paired h))
    · simp [hc] at h

theorem skipNumber_of_readNumber (h : readNumber negative t = .ok (x, r)) :
    skipNumber t = .ok r := by
  unfold readNumber at h
  cases t with
  | nil => cases h
  | cons c q =>
    by_cases hc : c.isDigit = true
    · have hdigits := skipDigits_cons (q := q) hc
      simp only [hc, Bool.not_true, Bool.false_eq_true, if_false, List.dropWhile_cons_of_pos] at h
      by_cases hzero : c = '0' ∧ q.head?.any Char.isDigit = true
      · rw [if_pos hzero] at h
        cases h
      · rw [if_neg hzero] at h
        have hzero' : ¬ ((c :: q).head? = some '0' ∧
            (c :: q).tail.head?.any Char.isDigit = true) := fun hz =>
          hzero ⟨Option.some.inj hz.1, hz.2⟩
        unfold skipNumber
        rw [hdigits]
        simp only [bind, Except.bind, if_neg hzero']
        generalize q.dropWhile Char.isDigit = rest at h ⊢
        split at h
        · obtain ⟨q', hq', htail⟩ := skipTail_of_fractionPart h
          simp only [hq', htail]
        · exact skipExponent_of_exponentPart h
        · exact skipExponent_of_exponentPart h
        · next hpoint he hE =>
          have hrest : rest = r := by
            split_ifs at h
            · exact rest_of_paired h
            · exact rest_of_paired h
          split
          · exact absurd rfl (hpoint _)
          · exact (skipTail_eq_self he hE).trans (congrArg Except.ok hrest)
    · simp [hc] at h

theorem length_readNumber_lt (h : readNumber negative t = .ok (x, r)) : r.length < t.length :=
  length_skipNumber_lt (skipNumber_of_readNumber h)

/-! ### Elements and members -/

theorem length_nextElement_le {q : Text} (h : nextElement first t = .ok (some q)) :
    q.length ≤ t.length := by
  have hblanks := length_skipBlanks_le t
  unfold nextElement at h
  split at h
  · cases h
  · cases h
  · next c u _ hu =>
    rw [hu] at hblanks
    split_ifs at h
    · cases h
      exact hblanks
    · split at h
      · cases h
      · cases h
      · cases h
        exact (length_skipBlanks_le u).trans ((Nat.le_succ _).trans hblanks)

/-- If an element follows, the array does not end here. -/
theorem closeArray_of_some {q : Text} (h : nextElement first t = .ok (some q)) :
    ∃ f, closeArray t = .error f := by
  unfold nextElement at h
  unfold closeArray
  split at h
  · cases h
  · cases h
  · next c u hend hu =>
    rw [hu]
    split
    · exact ⟨_, rfl⟩
    · next heq => exact absurd (List.cons.inj heq).1 hend
    · split <;> exact ⟨_, rfl⟩
    · exact ⟨_, rfl⟩

theorem nextSkipped_of_none (h : nextElement first t = .ok none) :
    nextSkipped first t = .ok none := by
  unfold nextElement at h
  unfold nextSkipped
  split at h
  · cases h
  · rfl
  · split_ifs at h
    · cases h
    · split at h <;> cases h

/-- After a comma the blanks are left to an element that is passed over. -/
theorem nextSkipped_of_some {q : Text} (h : nextElement first t = .ok (some q)) :
    ∃ q', nextSkipped first t = .ok (some q') ∧ skipBlanks q' = skipBlanks q := by
  unfold nextElement at h
  unfold nextSkipped
  split at h
  · cases h
  · cases h
  · next c u hend hu =>
    split_ifs at h with hfirst hcomma
    · cases h
      exact ⟨_, if_pos hfirst, rfl⟩
    · have hc : c = ',' := not_not.mp hcomma
      refine ⟨u, by rw [if_neg hfirst, if_pos hc], ?_⟩
      split at h
      · cases h
      · cases h
      · next hrest =>
        cases h
        exact (skipBlanks_skipBlanks u).symm

theorem length_closeArray_lt (h : closeArray t = .ok r) : r.length < t.length := by
  unfold closeArray at h
  split at h
  · cases h
  · next hu =>
    cases h
    exact length_lt_of_skipBlanks hu
  · split at h <;> cases h
  · cases h

theorem openKey_of_quote {q : Text} (h : skipBlanks t = '"' :: q) : openKey t = .ok q := by
  unfold openKey
  rw [h]
  rfl

theorem nextSkippedKey_of_nextKey {q : Option Text} (h : nextKey first t = .ok q) :
    nextSkippedKey first t = .ok q := by
  unfold nextKey at h
  unfold nextSkippedKey
  split at h
  · cases h
  · exact h
  · next c u hend hu =>
    split_ifs at h with hfirst hquote hcomma
    · cases h
      rw [if_pos hfirst, hquote, openKey_of_quote (t := '"' :: u) rfl]
      rfl
    · have hc : c = ',' := not_not.mp hcomma
      rw [if_neg hfirst, if_pos hc]
      split at h
      · cases h
      · next hq =>
        cases h
        rw [openKey_of_quote hq]
        rfl
      · cases h
      · cases h

theorem length_nextKey_lt {q : Text} (h : nextKey first t = .ok (some q)) :
    q.length < t.length := by
  have hblanks := length_skipBlanks_le t
  unfold nextKey at h
  split at h
  · cases h
  · cases h
  · next c u hend hu =>
    rw [hu] at hblanks
    split_ifs at h with hfirst hquote hcomma
    · cases h
      exact hblanks
    · split at h
      · cases h
      · next hq =>
        cases h
        exact (length_lt_of_skipBlanks hq).trans hblanks
      · cases h
      · cases h

theorem length_colon_lt (h : colon t = .ok r) : r.length < t.length := by
  unfold colon at h
  split at h
  · cases h
  · next hu =>
    cases h
    exact length_lt_of_skipBlanks hu
  · cases h

/-- If a member follows, the object does not end here. -/
theorem skipBlanks_ne_of_nextKey {q : Text} (h : nextKey first t = .ok (some q)) :
    skipBlanks t ≠ '}' :: r := by
  intro hu
  unfold nextKey at h
  rw [hu] at h
  cases h

theorem skipBlanks_of_closeObject (h : closeObject t = .ok r) : skipBlanks t = '}' :: r := by
  unfold closeObject at h
  split at h
  · cases h
  · next hu =>
    cases h
    exact hu
  · cases h
  · cases h

theorem length_closeObject_lt (h : closeObject t = .ok r) : r.length < t.length :=
  length_lt_of_skipBlanks (skipBlanks_of_closeObject h)

end QueryValidator.Json
