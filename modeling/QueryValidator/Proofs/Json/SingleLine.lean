import QueryValidator.Json.Value
import QueryValidator.Proofs.Text.Join
import QueryValidator.Proofs.Text.Quoted

/-!
# JSON on a single line

The text of a JSON value has no line feed: in strings it is escaped, and nothing else that is
written has one.
-/

namespace QueryValidator

namespace Text

theorem not_mem_ofNat {c : Char} (h : c.isDigit = false) (n : Nat) : c ∉ ofNat n := by
  intro hc
  rw [Nat.isDigit_of_mem_toDigits (by decide) (by decide) hc] at h
  cases h

end Text

/-! ### Numbers -/

theorem Magnitude.isDigit_of_mem_digits {x : Magnitude} {c : Char} (h : c ∈ x.digits.1) :
    c.isDigit = true := by
  have hsignificant := (List.dropWhile_sublist _).subset (List.mem_reverse.mp h)
  exact Nat.isDigit_of_mem_toDigits (by decide) (by decide) (List.mem_reverse.mp hsignificant)

theorem Binary64.newline_not_mem_pointed {ds : Text} (h : '\n' ∉ ds) : '\n' ∉ pointed ds := by
  unfold pointed
  split
  · simpa using h
  · exact h

theorem Binary64.newline_not_mem_magnitudeText (x : Magnitude) : '\n' ∉ magnitudeText x := by
  have hdigits : '\n' ∉ x.digits.1 :=
    fun h => absurd (Magnitude.isDigit_of_mem_digits h) (by decide)
  have hzeros : ∀ n, '\n' ∉ List.replicate n '0' :=
    fun n h => absurd (List.eq_of_mem_replicate h) (by decide)
  unfold magnitudeText
  cases hparts : x.digits with
  | mk ds e =>
    rw [hparts] at hdigits
    have hexponent := Text.not_mem_ofNat (by decide : '\n'.isDigit = false) e.natAbs
    have htake : ∀ n, '\n' ∉ ds.take n := fun n h => hdigits (List.mem_of_mem_take h)
    have hdrop : ∀ n, '\n' ∉ ds.drop n := fun n h => hdigits (List.mem_of_mem_drop h)
    simp only
    split_ifs
    · decide
    · simp [hdigits, hzeros]
    · simp [htake, hdrop]
    · simp [hdigits, hzeros]
    · simp only [List.mem_append, not_or]
      exact ⟨⟨newline_not_mem_pointed hdigits, by decide⟩, hexponent⟩
    · simp only [List.mem_append, not_or]
      exact ⟨⟨newline_not_mem_pointed hdigits, by decide⟩, hexponent⟩

theorem Binary64.newline_not_mem_text (x : Binary64) : '\n' ∉ x.text := by
  rw [text, List.mem_append, not_or]
  refine ⟨?_, newline_not_mem_magnitudeText x.magnitude⟩
  split <;> decide

theorem JsonNumber.newline_not_mem_text (n : JsonNumber) : '\n' ∉ n.text := by
  cases n with
  | nat n => exact Text.not_mem_ofNat rfl n
  | negative n =>
    rw [text, List.mem_cons, not_or]
    exact ⟨by decide, Text.not_mem_ofNat rfl n⟩
  | double x => exact x.newline_not_mem_text

/-! ### Values -/

namespace Json

mutual

theorem newline_not_mem_text : (v : Json) → '\n' ∉ v.text
  | .null => by decide
  | .bool true => by decide
  | .bool false => by decide
  | .number n => by
    rw [text]
    exact n.newline_not_mem_text
  | .string t => by
    rw [text]
    exact Text.newline_not_mem_quoted t
  | .array items => by
    have hitems := Text.not_mem_joinWith (by decide : '\n' ∉ ",".toList)
      (newline_not_mem_items items)
    rw [text, List.mem_cons, List.mem_append, not_or, not_or]
    exact ⟨by decide, hitems, by decide⟩
  | .object members => by
    have hmembers := Text.not_mem_joinWith (by decide : '\n' ∉ ",".toList)
      (newline_not_mem_members members)
    rw [text, List.mem_cons, List.mem_append, not_or, not_or]
    exact ⟨by decide, hmembers, by decide⟩

theorem newline_not_mem_items : (vs : List Json) → ∀ t ∈ itemTexts vs, '\n' ∉ t
  | [] => by simp [itemTexts]
  | v :: vs => by
    rw [itemTexts]
    exact List.forall_mem_cons.mpr ⟨newline_not_mem_text v, newline_not_mem_items vs⟩

theorem newline_not_mem_members : (ms : List (Text × Json)) → ∀ t ∈ memberTexts ms, '\n' ∉ t
  | [] => by simp [memberTexts]
  | (key, v) :: ms => by
    have hmember : '\n' ∉ memberText (key, v) := by
      rw [memberText, List.mem_append, List.mem_cons, not_or, not_or]
      exact ⟨Text.newline_not_mem_quoted key, by decide, newline_not_mem_text v⟩
    rw [memberTexts]
    exact List.forall_mem_cons.mpr ⟨hmember, newline_not_mem_members ms⟩

end

end Json

end QueryValidator
