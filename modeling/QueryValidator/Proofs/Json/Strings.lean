import QueryValidator.Json.Read
import QueryValidator.Proofs.Text.Join
import QueryValidator.Proofs.Text.Quoted

/-!
# Reading lists of quoted strings

An array of quoted texts, with a comma and a blank between them, is read back to the texts. Nothing
is asked of the texts: what they have of quotes, commas or brackets stays inside their quotes.
-/

namespace QueryValidator.Json

theorem read_quoted (bound levels : Nat) (t rest : Text) :
    read bound levels (t.quoted ++ rest) = .ok (.string t, rest) := by
  have hquoted : t.quoted ++ rest = '"' :: (t.flatMap Text.escaped ++ '"' :: rest) := by
    simp [Text.quoted]
  have hread : read bound levels ('"' :: (t.flatMap Text.escaped ++ '"' :: rest)) =
      (readString (t.flatMap Text.escaped ++ '"' :: rest)).map (Prod.map Json.string id) := by
    cases levels <;> rfl
  rw [hquoted, hread, readString_quoted]
  rfl

theorem read_array (bound levels : Nat) (r : Text) :
    read bound (levels + 1) ('[' :: r) =
      (elements (read bound levels) bound true r).map (Prod.map array id) :=
  rfl

/-- The elements behind the first, each with its comma. -/
theorem elements_following (textBound levels : Nat) (ts : List Text) (rest : Text) {bound : Nat}
    (hbound : ts.length < bound) :
    elements (read textBound levels) bound false
        (ts.flatMap (fun t => ", ".toList ++ t.quoted) ++ ']' :: rest) =
      .ok (ts.map Json.string, rest) := by
  induction ts generalizing bound with
  | nil =>
    obtain ⟨n, rfl⟩ : ∃ n, bound = n + 1 := ⟨bound - 1, by omega⟩
    rfl
  | cons t ts ih =>
    obtain ⟨n, rfl⟩ : ∃ n, bound = n + 1 := ⟨bound - 1, by omega⟩
    have hnext : ∀ r : Text, nextElement false (", ".toList ++ t.quoted ++ r) =
        .ok (some (t.quoted ++ r)) := fun _ => rfl
    have hrest := ih (Nat.lt_of_succ_lt_succ hbound)
    rw [List.flatMap_cons, List.append_assoc, elements, hnext]
    simp only [bind, Except.bind, read_quoted, hrest]
    rfl

theorem elements_quoted (textBound levels : Nat) (ts : List Text) (rest : Text) {bound : Nat}
    (hbound : ts.length < bound) :
    elements (read textBound levels) bound true
        (Text.joinWith ", " (ts.map Text.quoted) ++ ']' :: rest) =
      .ok (ts.map Json.string, rest) := by
  obtain ⟨n, rfl⟩ : ∃ n, bound = n + 1 := ⟨bound - 1, by omega⟩
  cases ts with
  | nil => rfl
  | cons t ts =>
    have hnext : ∀ r : Text, nextElement true (t.quoted ++ r) = .ok (some (t.quoted ++ r)) :=
      fun _ => rfl
    have hrest := elements_following textBound levels ts rest (Nat.lt_of_succ_lt_succ hbound)
    rw [List.map_cons, Text.joinWith_cons, List.flatMap_map, List.append_assoc, elements, hnext]
    simp only [bind, Except.bind, read_quoted, hrest]
    rfl

/-- **Lists of strings are read back**: quoted texts in brackets are read as the array of the
texts. -/
theorem parse_quoted (ts : List Text) :
    parse ("[" ++ Text.joinWith ", " (ts.map Text.quoted) ++ "]") =
      .ok (.array (ts.map Json.string)) := by
  show parse ('[' :: (Text.joinWith ", " (ts.map Text.quoted) ++ [']'])) = _
  have hcount := Text.count_le_joinWith ", " (by decide) (ts.map Text.quoted)
  have hbound : ts.length <
      memberBound ('[' :: (Text.joinWith ", " (ts.map Text.quoted) ++ [']'])) := by
    rw [List.length_map] at hcount
    simp only [memberBound, List.length_cons, List.length_append]
    omega
  rw [parse, maxDepth, read_array, elements_quoted _ 126 ts [] hbound]
  rfl

end QueryValidator.Json
