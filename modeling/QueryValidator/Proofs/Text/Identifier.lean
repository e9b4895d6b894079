import QueryValidator.Text.Uppercase
import Mathlib.Data.List.TakeWhile

/-!
# Identifiers

The characters of an identifier, how an identifier is taken from the front of a text, and which
changes of a text leave it an identifier: a new ending, and a capital at its front.
-/

namespace QueryValidator.Text

theorem isIdentifierPart_of_start {c : Char} (h : isIdentifierStart c = true) :
    isIdentifierPart c = true := by
  unfold isIdentifierStart at h
  unfold isIdentifierPart Char.isAlphanum
  simp only [Bool.or_eq_true] at h ⊢
  rcases h with (h | h) | h
  · exact Or.inl (Or.inl (Or.inl h))
  · exact Or.inl (Or.inr h)
  · exact Or.inr h

theorem all_part_of_isIdentifier {t : Text} (h : isIdentifier t = true) :
    ∀ c ∈ t, isIdentifierPart c = true := by
  cases t with
  | nil => exact fun c hc => absurd hc List.not_mem_nil
  | cons c r =>
    obtain ⟨hc, hr⟩ := Bool.and_eq_true_iff.mp h
    exact List.forall_mem_cons.mpr ⟨isIdentifierPart_of_start hc, List.all_eq_true.mp hr⟩

theorem not_mem_of_isIdentifier {t : Text} {c : Char} (h : isIdentifier t = true)
    (hc : isIdentifierPart c = false) : c ∉ t := by
  intro hm
  rw [all_part_of_isIdentifier h c hm] at hc
  exact absurd hc (by decide)

theorem ne_nil_of_isIdentifier {t : Text} (h : isIdentifier t = true) : t ≠ [] := by
  rintro rfl
  exact absurd h (by decide)

/-! ### At the front of a text -/

/-- The text cannot go on with a name that stands before it. -/
def EndsName (rest : Text) : Prop :=
  ∀ c, rest.head? = some c → isIdentifierPart c = false

theorem takeWhile_part {t rest : Text} (ht : ∀ c ∈ t, isIdentifierPart c = true)
    (hr : EndsName rest) : (t ++ rest).takeWhile isIdentifierPart = t := by
  rw [List.takeWhile_append_of_pos ht]
  cases rest with
  | nil => simp
  | cons c r => simp [hr c rfl]

theorem dropWhile_part {t rest : Text} (ht : ∀ c ∈ t, isIdentifierPart c = true)
    (hr : EndsName rest) : (t ++ rest).dropWhile isIdentifierPart = rest := by
  rw [List.dropWhile_append_of_pos ht]
  cases rest with
  | nil => rfl
  | cons c r => simp [hr c rfl]

/-! ### Names made of identifiers -/

theorem isIdentifier_append {t ending : Text} (ht : isIdentifier t = true)
    (hending : ending.all isIdentifierPart = true) : isIdentifier (t ++ ending) = true := by
  cases t with
  | nil => exact absurd ht (by decide)
  | cons c r =>
    obtain ⟨hc, hr⟩ := Bool.and_eq_true_iff.mp ht
    rw [List.cons_append, isIdentifier, hc, Bool.true_and, List.all_append, hr, hending]
    rfl

theorem all_part {t : Text} (h : isIdentifier t = true) : t.all isIdentifierPart = true :=
  List.all_eq_true.mpr (all_part_of_isIdentifier h)

/-- What stands at the front of an identifier is empty or an identifier. -/
theorem isIdentifier_of_append {front rest : Text} (h : isIdentifier (front ++ rest) = true) :
    front = [] ∨ isIdentifier front = true := by
  cases front with
  | nil => exact Or.inl rfl
  | cons c r =>
    rw [List.cons_append, isIdentifier, List.all_append, ← Bool.and_assoc] at h
    exact Or.inr (Bool.and_eq_true_iff.mp h).1

/-- The end of an identifier may be replaced, even if nothing stands before it. -/
theorem isIdentifier_replace {front rest ending : Text} (h : isIdentifier (front ++ rest) = true)
    (hending : isIdentifier ending = true) : isIdentifier (front ++ ending) = true := by
  rcases isIdentifier_of_append h with rfl | hfront
  · exact hending
  · exact isIdentifier_append hfront (all_part hending)

theorem toNat_lt_of_isAlpha {c : Char} (h : c.isAlpha = true) : c.toNat < 128 := by
  have hcase : c.isUpper = true ∨ c.isLower = true := Bool.or_eq_true_iff.mp h
  rcases hcase with hupper | hlower
  · have hle : c.val ≤ 'Z'.val := (of_decide_eq_true hupper).2
    exact Nat.lt_of_le_of_lt (UInt32.le_iff_toNat_le.mp hle) (by decide)
  · have hle : c.val ≤ 'z'.val := of_decide_eq_true (Bool.and_eq_true_iff.mp hlower).2
    exact Nat.lt_of_le_of_lt (UInt32.le_iff_toNat_le.mp hle) (by decide)

theorem upperOf_of_start {c : Char} (h : isIdentifierStart c = true) :
    upperOf c = [c.toUpper] ∧ isIdentifierStart c.toUpper = true := by
  unfold isIdentifierStart at h ⊢
  simp only [Bool.or_eq_true, beq_iff_eq] at h ⊢
  rcases h with (h | rfl) | rfl
  · have hascii := toNat_lt_of_isAlpha h
    have hletters : ∀ n < 128, (Char.ofNat n).isAlpha = true →
        (Char.ofNat n).toUpper.isAlpha = true := by decide
    have hletter := hletters c.toNat hascii
    rw [Char.ofNat_toNat] at hletter
    exact ⟨if_pos hascii, .inl (.inl (hletter h))⟩
  · decide
  · decide

theorem isIdentifier_capitalized {t : Text} (h : isIdentifier t = true) :
    isIdentifier (capitalized t) = true := by
  cases t with
  | nil => exact absurd h (by decide)
  | cons c r =>
    obtain ⟨hc, hr⟩ := Bool.and_eq_true_iff.mp h
    obtain ⟨hupper, hstart⟩ := upperOf_of_start hc
    rw [capitalized, hupper, List.singleton_append, isIdentifier, hstart, hr]
    rfl

end QueryValidator.Text
