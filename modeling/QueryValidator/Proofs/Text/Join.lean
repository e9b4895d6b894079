import QueryValidator.Text
import Mathlib.Data.List.Basic

/-!
# Joining and splitting

`joinWith` puts a separator between texts and `splitAt` cuts a text at a character. Joining the
pieces of a text with that character gives the text again.
-/

namespace QueryValidator.Text

/-! ### Joining -/

theorem joinWith_cons_cons (sep a b : Text) (ts : List Text) :
    joinWith sep (a :: b :: ts) = a ++ (sep ++ joinWith sep (b :: ts)) := by
  unfold joinWith
  rw [List.intercalate_cons_cons, List.append_assoc]

@[simp] theorem joinWith_singleton (sep a : Text) : joinWith sep [a] = a :=
  List.intercalate_singleton

theorem joinWith_cons (sep a : Text) (ts : List Text) :
    joinWith sep (a :: ts) = a ++ ts.flatMap (sep ++ ·) := by
  induction ts generalizing a with
  | nil => rw [joinWith_singleton, List.flatMap_nil, List.append_nil]
  | cons b ts ih => rw [joinWith_cons_cons, ih, List.flatMap_cons, List.append_assoc]

theorem length_le_joinWith (sep : Text) {t : Text} {ts : List Text} (h : t ∈ ts) :
    t.length ≤ (joinWith sep ts).length := by
  induction ts with
  | nil => exact absurd h List.not_mem_nil
  | cons a r ih =>
    cases r with
    | nil =>
      have hlen : t.length = (joinWith sep [a]).length := by
        rw [List.mem_singleton.mp h, joinWith_singleton]
      exact Nat.le_of_eq hlen
    | cons b r =>
      rw [joinWith_cons_cons, List.length_append, List.length_append]
      rcases List.mem_cons.mp h with rfl | h
      · omega
      · have := ih h
        omega

theorem joinWith_append (sep : Text) {as bs : List Text} (ha : as ≠ []) (hb : bs ≠ []) :
    joinWith sep (as ++ bs) = joinWith sep as ++ (sep ++ joinWith sep bs) := by
  induction as with
  | nil => exact absurd rfl ha
  | cons a as ih =>
    cases as with
    | nil =>
      cases bs with
      | nil => exact absurd rfl hb
      | cons b bs => rw [List.singleton_append, joinWith_cons_cons, joinWith_singleton]
    | cons a' as =>
      rw [List.cons_append, List.cons_append, joinWith_cons_cons, joinWith_cons_cons,
        ← List.cons_append, ih (List.cons_ne_nil a' as), List.append_assoc, List.append_assoc]

/-- What is joined has only characters of the separator and of the pieces. -/
theorem mem_joinWith {c : Char} {sep : Text} {ts : List Text} (h : c ∈ joinWith sep ts) :
    c ∈ sep ∨ ∃ t ∈ ts, c ∈ t := by
  cases ts with
  | nil => exact absurd h List.not_mem_nil
  | cons a ts =>
    rw [joinWith_cons, List.mem_append, List.mem_flatMap] at h
    rcases h with h | ⟨t, ht, h⟩
    · exact Or.inr ⟨a, List.mem_cons_self, h⟩
    · rcases List.mem_append.mp h with h | h
      · exact Or.inl h
      · exact Or.inr ⟨t, List.mem_cons_of_mem _ ht, h⟩

theorem not_mem_joinWith {c : Char} {sep : Text} {ts : List Text} (hsep : c ∉ sep)
    (h : ∀ t ∈ ts, c ∉ t) : c ∉ joinWith sep ts := by
  intro hc
  rcases mem_joinWith hc with hs | ⟨t, ht, hct⟩
  · exact hsep hs
  · exact h t ht hct

/-- Between two texts stands at least one character. -/
theorem count_le_joinWith (sep : Text) (hsep : sep ≠ []) (ts : List Text) :
    ts.length ≤ (joinWith sep ts).length + 1 := by
  have hpos : 0 < sep.length := List.length_pos_iff.mpr hsep
  induction ts with
  | nil => exact Nat.zero_le _
  | cons a r ih =>
    cases r with
    | nil => exact Nat.succ_le_succ (Nat.zero_le _)
    | cons b r =>
      rw [joinWith_cons_cons, List.length_append, List.length_append, List.length_cons]
      omega

/-! ### Splitting -/

theorem splitAt_eq_splitOn (c : Char) (t : Text) : splitAt c t = t.splitOn c := by
  induction t with
  | nil => rfl
  | cons x r ih =>
    rw [splitAt, List.splitOn_cons_eq_if_modifyHead, ih]
    by_cases h : x = c
    · simp [h]
    · rw [if_neg h, if_neg (by simpa using h)]
      cases hr : List.splitOn c r with
      | nil => exact absurd hr (List.splitOn_ne_nil c r)
      | cons p ps => rfl

theorem splitAt_ne_nil (c : Char) (t : Text) : splitAt c t ≠ [] := by
  rw [splitAt_eq_splitOn]
  exact List.splitOn_ne_nil c t

theorem splitAt_append_cons (c : Char) (t r : Text) :
    splitAt c (t ++ c :: r) = splitAt c t ++ splitAt c r := by
  rw [splitAt_eq_splitOn, splitAt_eq_splitOn, splitAt_eq_splitOn]
  exact List.splitOn_append_cons_self t r

theorem splitAt_of_not_mem {c : Char} {t : Text} (h : c ∉ t) : splitAt c t = [t] := by
  rw [splitAt_eq_splitOn]
  exact List.splitOn_eq_singleton h

/-- The character that a text is cut at is in none of the pieces. -/
theorem not_mem_of_mem_splitAt {c : Char} {t part : Text} (h : part ∈ splitAt c t) : c ∉ part := by
  induction t generalizing part with
  | nil =>
    rw [splitAt, List.mem_singleton] at h
    rw [h]
    exact List.not_mem_nil
  | cons x r ih =>
    rw [splitAt] at h
    split at h
    · rcases List.mem_cons.mp h with rfl | h
      · exact List.not_mem_nil
      · exact ih h
    · next hx =>
      cases hr : splitAt c r with
      | nil =>
        rw [hr] at h
        rw [List.mem_singleton.mp h, List.mem_singleton]
        exact Ne.symm hx
      | cons p ps =>
        rw [hr] at h ih
        rcases List.mem_cons.mp h with rfl | h
        · rw [List.mem_cons, not_or]
          exact ⟨Ne.symm hx, ih List.mem_cons_self⟩
        · exact ih (List.mem_cons_of_mem p h)

theorem joinWith_splitAt (c : Char) (t : Text) : joinWith [c] (splitAt c t) = t := by
  rw [splitAt_eq_splitOn]
  exact List.intercalate_splitOn c

/-- Pieces without the character are those of the text that they are joined to. -/
theorem splitAt_joinWith {c : Char} {parts : List Text} (hne : parts ≠ [])
    (h : ∀ part ∈ parts, c ∉ part) : splitAt c (joinWith [c] parts) = parts := by
  rw [splitAt_eq_splitOn]
  exact List.splitOn_intercalate c h hne

/-- Lines with their ends are cut into the lines, and what follows them is cut by itself. -/
theorem splitAt_lines {c : Char} {lines : List Text} (h : ∀ line ∈ lines, c ∉ line) (rest : Text) :
    splitAt c (lines.flatMap (· ++ [c]) ++ rest) = lines ++ splitAt c rest := by
  induction lines with
  | nil => rfl
  | cons line lines ih =>
    obtain ⟨hline, hlines⟩ := List.forall_mem_cons.mp h
    rw [List.flatMap_cons, List.append_assoc, List.append_assoc, List.singleton_append,
      splitAt_append_cons, splitAt_of_not_mem hline, ih hlines, List.singleton_append,
      List.cons_append]

/-- What a text begins with, before the character that joins, is what its first piece begins
with. -/
theorem prefix_joinWith_cons_iff {front part : Text} {c : Char} {parts : List Text}
    (h : c ∉ front) : front <+: joinWith [c] (part :: parts) ↔ front <+: part := by
  cases parts with
  | nil => rw [joinWith_singleton]
  | cons next parts =>
    rw [joinWith_cons_cons, List.singleton_append]
    refine ⟨fun hfront => ?_, fun hfront => hfront.trans (List.prefix_append _ _)⟩
    rcases Nat.lt_or_ge part.length front.length with hlt | hge
    · -- the front would go beyond the first piece, and so have the character
      obtain ⟨rest, rfl⟩ : part <+: front :=
        List.prefix_of_prefix_length_le (List.prefix_append _ _) hfront (Nat.le_of_lt hlt)
      rw [List.prefix_append_right_inj] at hfront
      cases rest with
      | nil => simp at hlt
      | cons d rest =>
        obtain ⟨rfl, -⟩ := List.cons_prefix_cons.mp hfront
        exact absurd (List.mem_append_right _ List.mem_cons_self) h
    · exact List.prefix_of_prefix_length_le hfront (List.prefix_append _ _) hge

end QueryValidator.Text
