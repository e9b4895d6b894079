import QueryValidator.Text
import Mathlib.Data.List.Infix

/-!
# Endings and occurrences

What `dropEnding?` and `cut?` say about a text, in terms of `<:+` and `<:+:`. An occurrence of a
mark cannot lie across a character that the mark does not have (`infix_append_cons_iff`).
-/

namespace QueryValidator.Text

/-! ### Endings -/

theorem dropEnding?_eq_some_iff {ending t before : Text} :
    dropEnding? ending t = some before ↔ before ++ ending = t :=
  List.isSuffixOf?_eq_some_iff_append_eq

@[simp] theorem dropEnding?_append (t ending : Text) :
    dropEnding? ending (t ++ ending) = some t :=
  dropEnding?_eq_some_iff.mpr rfl

theorem dropEnding?_eq_none_iff {ending t : Text} :
    dropEnding? ending t = none ↔ ¬ ending <:+ t := by
  constructor
  · rintro h ⟨before, hb⟩
    rw [dropEnding?_eq_some_iff.mpr hb] at h
    exact absurd h (by simp)
  · intro h
    cases hd : dropEnding? ending t with
    | none => rfl
    | some before => exact absurd ⟨before, dropEnding?_eq_some_iff.mp hd⟩ h

/-- Of two endings of the same text one is an ending of the other. -/
theorem ending_of_append_eq {s t a b : Text} (h : s ++ a = t ++ b) : a <:+ b ∨ b <:+ a :=
  List.suffix_or_suffix_of_suffix (List.suffix_append s a) (h ▸ List.suffix_append t b)

theorem append_ne_append {a b : Text} (ha : ¬ a <:+ b) (hb : ¬ b <:+ a) (s t : Text) :
    s ++ a ≠ t ++ b := by
  intro h
  rcases ending_of_append_eq h with hs | hs
  · exact ha hs
  · exact hb hs

/-- Endings of which none ends in another can be told from the texts that they end. -/
theorem append_ending_inj {ι : Type} {ending : ι → Text} (h : ∀ i j, ending i <:+ ending j → i = j)
    {s t : Text} {i j : ι} : s ++ ending i = t ++ ending j ↔ s = t ∧ i = j := by
  constructor
  · intro heq
    have hij : i = j := by
      rcases ending_of_append_eq heq with hs | hs
      · exact h i j hs
      · exact (h j i hs).symm
    subst hij
    exact ⟨List.append_cancel_right heq, rfl⟩
  · rintro ⟨rfl, rfl⟩
    rfl

/-! ### Occurrences -/

theorem cut?_sound {mark t before rest : Text} (h : cut? mark t = some (before, rest)) :
    before ++ mark ++ rest = t := by
  induction t generalizing before with
  | nil =>
    cases mark with
    | nil => simp [cut?] at h; simp [h]
    | cons m ms => simp [cut?] at h
  | cons c r ih =>
    rw [cut?] at h
    cases hp : mark.isPrefixOf? (c :: r) with
    | some rest' =>
      rw [hp] at h
      obtain ⟨rfl, rfl⟩ : [] = before ∧ rest' = rest := by simpa using h
      exact List.isPrefixOf?_eq_some_iff_append_eq.mp hp
    | none =>
      rw [hp] at h
      obtain ⟨⟨b, r'⟩, hb, he⟩ := Option.map_eq_some_iff.mp h
      obtain ⟨rfl, rfl⟩ : c :: b = before ∧ r' = rest := by simpa using he
      simpa using ih hb

theorem cut?_append (mark rest : Text) : cut? mark (mark ++ rest) = some ([], rest) := by
  have hp : mark.isPrefixOf? (mark ++ rest) = some rest :=
    List.isPrefixOf?_eq_some_iff_append_eq.mpr rfl
  cases h : mark ++ rest with
  | nil =>
    obtain ⟨rfl, rfl⟩ := List.append_eq_nil_iff.mp h
    rfl
  | cons c r =>
    rw [h] at hp
    rw [cut?, hp]

theorem cut?_isSome_of_infix {mark t : Text} (h : mark <:+: t) : (cut? mark t).isSome := by
  induction t with
  | nil => simp [cut?, List.infix_nil.mp h]
  | cons c r ih =>
    rw [cut?]
    cases hp : mark.isPrefixOf? (c :: r) with
    | some rest => simp
    | none =>
      rcases List.infix_cons_iff.mp h with ⟨s, hs⟩ | hr
      · rw [List.isPrefixOf?_eq_some_iff_append_eq.mpr hs] at hp
        exact absurd hp (by simp)
      · simpa using ih hr

theorem occursIn_iff {mark t : Text} : occursIn mark t = true ↔ mark <:+: t := by
  constructor
  · intro h
    obtain ⟨⟨before, rest⟩, hc⟩ := Option.isSome_iff_exists.mp h
    exact ⟨before, rest, cut?_sound hc⟩
  · exact cut?_isSome_of_infix

theorem cut?_eq_none_iff {mark t : Text} : cut? mark t = none ↔ occursIn mark t = false := by
  rw [occursIn, Option.isSome_eq_false_iff, Option.isNone_iff_eq_none]

/-- The mark is cut at its first occurrence: what stands before any other is no shorter. -/
theorem cut?_first {mark t before rest front : Text} (h : cut? mark t = some (before, rest))
    (hfront : front ++ mark <+: t) : before.length ≤ front.length := by
  induction t generalizing before front with
  | nil =>
    have hsound := cut?_sound h
    rw [List.append_assoc] at hsound
    rw [(List.append_eq_nil_iff.mp hsound).1]
    exact Nat.zero_le _
  | cons c r ih =>
    rw [cut?] at h
    cases hp : mark.isPrefixOf? (c :: r) with
    | some rest' =>
      rw [hp] at h
      cases h
      exact Nat.zero_le _
    | none =>
      rw [hp] at h
      obtain ⟨⟨b, r'⟩, hb, he⟩ := Option.map_eq_some_iff.mp h
      cases he
      cases front with
      | nil =>
        -- the mark would be at the front, where it was not found
        obtain ⟨s, hs⟩ : mark <+: c :: r := hfront
        rw [List.isPrefixOf?_eq_some_iff_append_eq.mpr hs] at hp
        exact absurd hp (by simp)
      | cons d front =>
        exact Nat.succ_le_succ (ih hb (List.cons_prefix_cons.mp hfront).2)

theorem cut?_eq_some_of_first {mark before rest : Text}
    (h : ∀ front, front ++ mark <+: before ++ (mark ++ rest) → before.length ≤ front.length) :
    cut? mark (before ++ (mark ++ rest)) = some (before, rest) := by
  have hocc : occursIn mark (before ++ (mark ++ rest)) = true :=
    occursIn_iff.mpr ⟨before, rest, List.append_assoc _ _ _⟩
  obtain ⟨⟨b, r⟩, hcut⟩ := Option.isSome_iff_exists.mp hocc
  have hsound := cut?_sound hcut
  have hlen : b.length = before.length :=
    Nat.le_antisymm (cut?_first hcut ⟨rest, List.append_assoc _ _ _⟩) (h b ⟨r, hsound⟩)
  rw [List.append_assoc] at hsound
  obtain ⟨rfl, hrest⟩ := List.append_inj hsound hlen
  rw [hcut, List.append_cancel_left hrest]

/-- A mark that does not have its first character again is found behind a text in which it does not
occur: no occurrence begins in the text and ends in the mark. -/
theorem cut?_append_of_not_occurs {c : Char} {r t : Text} (hc : c ∉ r)
    (ht : occursIn (c :: r) t = false) (rest : Text) :
    cut? (c :: r) (t ++ (c :: r ++ rest)) = some (t, rest) := by
  refine cut?_eq_some_of_first fun front hfront => Nat.le_of_not_lt fun hlt => ?_
  obtain ⟨u, rfl⟩ : front <+: t := List.prefix_of_prefix_length_le
    ((List.prefix_append front _).trans hfront) (List.prefix_append t _) (Nat.le_of_lt hlt)
  rw [List.append_assoc, List.prefix_append_right_inj] at hfront
  have hout : ¬ c :: r <+: u := by
    intro hmark
    have hocc : occursIn (c :: r) (front ++ u) = true :=
      occursIn_iff.mpr (hmark.isInfix.trans (List.suffix_append front u).isInfix)
    rw [ht] at hocc
    exact Bool.false_ne_true hocc
  obtain ⟨v, hv⟩ : u <+: c :: r :=
    (List.prefix_or_prefix_of_prefix hfront (List.prefix_append u _)).resolve_left hout
  rw [← hv, List.prefix_append_right_inj, hv] at hfront
  cases v with
  | nil => exact hout ⟨[], by rw [← hv, List.append_nil, List.append_nil]⟩
  | cons d v =>
    -- the rest of the mark would begin as the mark does
    obtain ⟨rfl, -⟩ := List.cons_prefix_cons.mp hfront
    cases u with
    | nil => simp at hlt
    | cons x u =>
      obtain ⟨-, rfl⟩ := List.cons_eq_cons.mp hv
      exact hc (by simp)

/-- A text that has a character less often than the mark does not have the mark. -/
theorem not_infix_of_count_lt {mark t : Text} {c : Char} (h : t.count c < mark.count c) :
    ¬ mark <:+: t :=
  fun hmark => Nat.not_le_of_lt h (hmark.sublist.count_le c)

/-- A mark that cannot go over the end of a line is found behind lines in none of which it occurs. -/
theorem cut?_lines {mark : Text} {c : Char} {lines : List Text} (hc : c ∉ mark)
    (h : ∀ line ∈ lines, ¬ mark <:+: line) (rest : Text) :
    cut? mark (lines.flatMap (· ++ [c]) ++ (mark ++ rest)) =
      some (lines.flatMap (· ++ [c]), rest) := by
  refine cut?_eq_some_of_first ?_
  induction lines with
  | nil => exact fun _ _ => Nat.zero_le _
  | cons line lines ih =>
    intro front hfront
    obtain ⟨hline, hlines⟩ := List.forall_mem_cons.mp h
    rw [List.flatMap_cons, List.append_assoc] at hfront
    rcases Nat.lt_or_ge line.length front.length with hlt | hle
    · obtain ⟨front, rfl⟩ : line ++ [c] <+: front :=
        List.prefix_of_prefix_length_le (List.prefix_append _ _)
          ((List.prefix_append front mark).trans hfront)
          (by rw [List.length_append]; exact hlt)
      rw [List.append_assoc, List.prefix_append_right_inj] at hfront
      simp only [List.flatMap_cons, List.length_append]
      exact Nat.add_le_add_left (ih hlines front hfront) _
    · -- the mark would begin in the line, and so go over its end
      obtain ⟨tail, rfl⟩ : front <+: line :=
        List.prefix_of_prefix_length_le ((List.prefix_append front mark).trans hfront)
          ((List.prefix_append _ _).trans (List.prefix_append _ _)) hle
      rw [List.append_assoc, List.append_assoc, List.prefix_append_right_inj,
        ← List.append_assoc] at hfront
      rcases List.prefix_or_prefix_of_prefix hfront (List.prefix_append (tail ++ [c]) _) with hm | hm
      · rcases List.prefix_concat_iff.mp hm with heq | hm
        · exact absurd (by simp [heq]) hc
        · exact absurd (hm.isInfix.trans (List.suffix_append front tail).isInfix) hline
      · exact absurd (hm.subset (by simp)) hc

end QueryValidator.Text
