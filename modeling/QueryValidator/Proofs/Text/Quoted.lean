import QueryValidator.Json.Scan
import QueryValidator.Text.Quoted
import Mathlib.Tactic.IntervalCases

/-!
# Reading quoted strings

The reader of JSON strings takes a quoted text back to the text, whatever follows the closing
quote. No control character is left in a quoted text.
-/

namespace QueryValidator.Json

/-- A character that is no control character, quote or backslash stands for itself. -/
theorem escaped_eq_self {c : Char} (hcontrol : ¬ c.toNat < 32) (hquote : c ≠ '"')
    (hslash : c ≠ '\\') : Text.escaped c = [c] := by
  unfold Text.escaped
  rw [if_neg hquote, if_neg hslash, if_neg (by omega), if_neg (by omega), if_neg (by omega),
    if_neg (by omega), if_neg (by omega), if_neg (by omega), if_neg hcontrol]

/-- The character `c` in front of the string that is read. -/
def withChar (c : Char) (r : Except Fault (Text × Text)) : Except Fault (Text × Text) :=
  r.map fun (s, rest) => (c :: s, rest)

/-- Characters below U+0020 are escaped with four digits or by a letter. -/
theorem stringFrom_escaped_control {n : Nat} (h : n < 32) (rest : Text) :
    stringFrom .plain (Text.escaped (Char.ofNat n) ++ rest) =
      withChar (Char.ofNat n) (stringFrom .plain rest) := by
  interval_cases n <;> rfl

theorem stringFrom_escaped (c : Char) (rest : Text) :
    stringFrom .plain (Text.escaped c ++ rest) = withChar c (stringFrom .plain rest) := by
  by_cases hc : c.toNat < 32
  · have h := stringFrom_escaped_control hc rest
    rwa [Char.ofNat_toNat] at h
  · by_cases hq : c = '"'
    · subst hq; rfl
    · by_cases hb : c = '\\'
      · subst hb; rfl
      · rw [escaped_eq_self hc hq hb, List.singleton_append, stringFrom, if_neg hq, if_neg hb, if_neg hc]
        rfl

/-- **Quoting is read back**: a quoted text denotes the text. -/
theorem readString_quoted (t rest : Text) :
    readString (t.flatMap Text.escaped ++ '"' :: rest) = .ok (t, rest) := by
  unfold readString
  induction t with
  | nil => simp [stringFrom]
  | cons c t ih =>
    rw [List.flatMap_cons, List.append_assoc, stringFrom_escaped, ih]
    rfl

end QueryValidator.Json

namespace QueryValidator.Text

theorem le_toNat_of_mem_escaped {c x : Char} (h : x ∈ escaped c) : 32 ≤ x.toNat := by
  by_cases hc : c.toNat < 32
  · have hcontrol : ∀ n < 32, (escaped (Char.ofNat n)).all (32 ≤ ·.toNat) = true := by decide
    rw [← Char.ofNat_toNat c] at h
    exact of_decide_eq_true (List.all_eq_true.mp (hcontrol c.toNat hc) x h)
  · by_cases hq : c = '"'
    · have hquote : (escaped '"').all (32 ≤ ·.toNat) = true := by decide
      exact of_decide_eq_true (List.all_eq_true.mp hquote x (hq ▸ h))
    · by_cases hb : c = '\\'
      · have hslash : (escaped '\\').all (32 ≤ ·.toNat) = true := by decide
        exact of_decide_eq_true (List.all_eq_true.mp hslash x (hb ▸ h))
      · rw [Json.escaped_eq_self hc hq hb, List.mem_singleton] at h
        rw [h]
        exact Nat.le_of_not_lt hc

/-- A quoted text has no control character. -/
theorem le_toNat_of_mem_quoted {t : Text} {x : Char} (h : x ∈ quoted t) : 32 ≤ x.toNat := by
  unfold quoted at h
  rw [List.mem_cons, List.mem_append, List.mem_flatMap, List.mem_singleton] at h
  rcases h with rfl | ⟨c, -, hc⟩ | rfl
  · decide
  · exact le_toNat_of_mem_escaped hc
  · decide

theorem newline_not_mem_quoted (t : Text) : '\n' ∉ quoted t :=
  fun h => absurd (le_toNat_of_mem_quoted h) (by decide)

end QueryValidator.Text
