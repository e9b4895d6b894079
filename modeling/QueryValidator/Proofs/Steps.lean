import QueryValidator.Text
import Mathlib.Data.List.Perm.Basic

/-!
# Steps that may fail

What the result of some steps says of each of them. Where only results matter and not which of
several faults is told, steps are compared by `Except.toOption`.
-/

namespace QueryValidator

/-! ### Results -/

theorem Except.bind_eq_ok_iff {ε α β : Type} {x : Except ε α} {f : α → Except ε β} {b : β} :
    (x >>= f) = .ok b ↔ ∃ a, x = .ok a ∧ f a = .ok b := by
  cases x with
  | error e => simp [bind, Except.bind]
  | ok a => simp [bind, Except.bind]

theorem Except.map_eq_ok_iff {ε α β : Type} {x : Except ε α} {f : α → β} {b : β} :
    x.map f = .ok b ↔ ∃ a, x = .ok a ∧ f a = b := by
  cases x with
  | error e => simp [Except.map]
  | ok a => simp [Except.map]

/-- The results of all steps, when every one has a result. -/
theorem Except.mapM_eq_ok_iff {ε α β : Type} {f : α → Except ε β} {xs : List α} {ys : List β} :
    xs.mapM f = .ok ys ↔ xs.map f = ys.map .ok := by
  induction xs generalizing ys with
  | nil =>
    cases ys with
    | nil => simp [pure, Except.pure]
    | cons y ys => simp [pure, Except.pure]
  | cons x xs ih =>
    rw [List.mapM_cons, bind_eq_ok_iff]
    constructor
    · rintro ⟨y, hy, hrest⟩
      obtain ⟨ys', hys, hpure⟩ := bind_eq_ok_iff.mp hrest
      cases hpure
      rw [List.map_cons, List.map_cons, hy, ih.mp hys]
    · intro h
      cases ys with
      | nil => exact absurd h (by simp)
      | cons y ys =>
        obtain ⟨hy, hys⟩ := List.cons_eq_cons.mp h
        exact ⟨y, hy, bind_eq_ok_iff.mpr ⟨ys, ih.mpr hys, rfl⟩⟩

/-- What a list of steps results in comes from one of them. -/
theorem Except.exists_step {ε α β : Type} {f : α → Except ε β} {xs : List α} {ys : List β}
    (h : xs.map f = ys.map .ok) {y : β} (hy : y ∈ ys) : ∃ x ∈ xs, f x = .ok y := by
  have hmem : Except.ok y ∈ xs.map f := h ▸ List.mem_map_of_mem hy
  exact List.mem_map.mp hmem

/-- Each of a list of steps that all succeed has its result among theirs. -/
theorem Except.exists_result {ε α β : Type} {f : α → Except ε β} {xs : List α} {ys : List β}
    (h : xs.map f = ys.map .ok) {x : α} (hx : x ∈ xs) : ∃ y ∈ ys, f x = .ok y := by
  have hmem : f x ∈ ys.map Except.ok := h ▸ List.mem_map_of_mem hx
  obtain ⟨y, hy, hfx⟩ := List.mem_map.mp hmem
  exact ⟨y, hy, hfx.symm⟩

/-- Steps that all succeed, and whose results are those of a function, have the results that it
gives. -/
theorem Except.eq_map_of_map_eq_ok {ε α β : Type} {f : α → Except ε β} {g : α → β} {xs : List α}
    {ys : List β} (hg : ∀ x ∈ xs, ∀ y, f x = .ok y → y = g x) (h : xs.map f = ys.map .ok) :
    ys = xs.map g := by
  induction xs generalizing ys with
  | nil => exact List.map_eq_nil_iff.mp h.symm
  | cons x xs ih =>
    cases ys with
    | nil => exact absurd h (by simp)
    | cons y ys =>
      obtain ⟨hy, hys⟩ := List.cons_eq_cons.mp h
      rw [List.map_cons, hg x List.mem_cons_self y hy,
        ih (fun z hz => hg z (List.mem_cons_of_mem x hz)) hys]

/-! ### Results without their faults -/

section

variable {ε ε' α β : Type}

@[simp] theorem Except.toOption_ok (a : α) : (Except.ok a : Except ε α).toOption = some a := rfl

@[simp] theorem Except.toOption_error (e : ε) : (Except.error e : Except ε α).toOption = none := rfl

@[simp] theorem Except.toOption_bind (x : Except ε α) (f : α → Except ε β) :
    (x >>= f).toOption = x.toOption.bind fun a => (f a).toOption := by
  cases x <;> rfl

@[simp] theorem Except.toOption_map (f : α → β) (x : Except ε α) :
    (x.map f).toOption = x.toOption.map f := by
  cases x <;> rfl

@[simp] theorem Except.toOption_eq_some_iff {x : Except ε α} {a : α} :
    x.toOption = some a ↔ x = .ok a := by
  cases x <;> simp

/-- Steps have the same result, or both have none. -/
theorem Except.toOption_eq_iff {x : Except ε α} {y : Except ε' α} :
    x.toOption = y.toOption ↔ ∀ a, x = .ok a ↔ y = .ok a := by
  rw [Option.ext_iff]
  simp only [toOption_eq_some_iff]

theorem Except.toOption_foldlM {σ : Type} (f : σ → α → Except ε σ) (xs : List α) (s : σ) :
    (xs.foldlM f s).toOption =
      xs.foldl (fun s x => s.bind fun s => (f s x).toOption) (some s) := by
  have hnone : ∀ ys : List α,
      ys.foldl (fun s x => s.bind fun s => (f s x).toOption) none = none := by
    intro ys
    induction ys with
    | nil => rfl
    | cons y ys ih => exact ih
  induction xs generalizing s with
  | nil => rfl
  | cons x xs ih =>
    rw [List.foldlM_cons, toOption_bind, List.foldl_cons, Option.bind_some]
    cases f s x with
    | error e => exact (hnone xs).symm
    | ok s' => exact ih s'

/-- Steps of which any two may change places give the same result in any order. -/
theorem Except.toOption_foldlM_of_perm {σ : Type} {f : σ → α → Except ε σ} {xs ys : List α}
    (h : xs.Perm ys)
    (hcomm : ∀ x ∈ xs, ∀ y ∈ xs, ∀ s,
      (f s x >>= fun s => f s y).toOption = (f s y >>= fun s => f s x).toOption) (s : σ) :
    (xs.foldlM f s).toOption = (ys.foldlM f s).toOption := by
  rw [toOption_foldlM, toOption_foldlM]
  refine h.foldl_eq' (fun x hx y hy o => ?_) (some s)
  cases o with
  | none => rfl
  | some s =>
    have hxy := hcomm x hx y hy s
    rw [toOption_bind, toOption_bind] at hxy
    exact hxy

end

end QueryValidator
