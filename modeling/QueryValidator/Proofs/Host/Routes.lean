import QueryValidator.Host.FileTree
import QueryValidator.Proofs.Module.Location
import Mathlib.Logic.Relation

/-!
# The parts of paths

The parts of a path are what the kernel goes along: those of `join p q` are the parts of `p` and
then those of `q`, and the parts of the paths above a path are where its own begin.
-/

namespace QueryValidator

namespace FileTree.Route

variable {p q : Text}

/-- The parts of a path. -/
def partsOf (p : Text) : List Text :=
  (ofText p).parts

theorem partsOf_nil : partsOf [] = [] := rfl

theorem partsOf_append_cons (p q : Text) : partsOf (p ++ '/' :: q) = partsOf p ++ partsOf q := by
  show ((Text.splitAt '/' (p ++ '/' :: q)).filter fun part => !part.isEmpty) = _
  rw [Text.splitAt_append_cons, List.filter_append]
  rfl

theorem partsOf_join (h : Path.isAbsolute q = false) :
    partsOf (Path.join p q) = partsOf p ++ partsOf q := by
  rw [Path.join, h, if_neg Bool.false_ne_true]
  split
  · next hend =>
    rcases Bool.or_eq_true_iff.mp hend with hnil | hslash
    · rw [List.isEmpty_iff.mp hnil, partsOf_nil]
      rfl
    · obtain ⟨p', rfl⟩ := List.getLast?_eq_some_iff.mp (beq_iff_eq.mp hslash)
      rw [List.append_assoc, List.singleton_append, partsOf_append_cons, partsOf_append_cons,
        partsOf_nil, List.append_nil]
  · exact partsOf_append_cons p q

theorem isAbsolute_join (h : Path.isAbsolute q = false) :
    Path.isAbsolute (Path.join p q) = Path.isAbsolute p := by
  rw [Path.join, h, if_neg Bool.false_ne_true]
  cases p with
  | nil => exact h
  | cons c p => split <;> rfl

theorem wantsDirectory_join (hq : q ≠ []) (h : Path.isAbsolute q = false) :
    (ofText (Path.join p q)).wantsDirectory = (ofText q).wantsDirectory := by
  show ((Path.join p q).getLast? == some '/') = (q.getLast? == some '/')
  have hlast : ∀ p : Text, (p ++ q).getLast? = q.getLast? := by
    intro p
    rw [List.getLast?_append]
    cases hq' : q.getLast? with
    | none => exact absurd (List.getLast?_eq_none_iff.mp hq') hq
    | some c => rfl
  rw [Path.join, h, if_neg Bool.false_ne_true]
  split
  · rw [hlast]
  · rw [← List.singleton_append, ← List.append_assoc, hlast]

/-! ### Logical paths -/

/-- Every part of the path is a name that a file can have. -/
def IsLogical (q : Text) : Prop :=
  ∀ x ∈ Text.splitAt '/' q, Path.IsFileName x

theorem isLogical_name {name : Text} (h : Path.IsFileName name) : IsLogical name := by
  rw [IsLogical, Text.splitAt_of_not_mem h.1, List.forall_mem_singleton]
  exact h

namespace IsLogical

theorem nil_not_mem (h : IsLogical q) : [] ∉ Text.splitAt '/' q :=
  fun hmem => absurd (h [] hmem).2.1 (by decide)

theorem ne_nil (h : IsLogical q) : q ≠ [] := by
  rintro rfl
  exact h.nil_not_mem List.mem_cons_self

theorem partsOf (h : IsLogical q) : Route.partsOf q = Text.splitAt '/' q := by
  refine List.filter_eq_self.mpr fun x hx => ?_
  cases x with
  | nil => exact absurd hx h.nil_not_mem
  | cons c x => rfl

theorem isAbsolute (h : IsLogical q) : Path.isAbsolute q = false := by
  refine beq_eq_false_iff_ne.mpr fun hhead => ?_
  obtain ⟨r, rfl⟩ := List.head?_eq_some_iff.mp hhead
  exact h.nil_not_mem List.mem_cons_self

theorem wantsDirectory (h : IsLogical q) : (ofText q).wantsDirectory = false := by
  refine beq_eq_false_iff_ne.mpr fun hlast => ?_
  obtain ⟨r, rfl⟩ := List.getLast?_eq_some_iff.mp hlast
  refine h.nil_not_mem ?_
  rw [Text.splitAt_append_cons]
  exact List.mem_append_right _ List.mem_cons_self

end IsLogical

/-! ### Parents -/

/-- The parts of a path that is cut before one of its slashes. -/
theorem partsOf_cut {front body : Text} {xs : List Text} (h : xs <+: Text.splitAt '/' body)
    (hfront : partsOf front <+: partsOf (front ++ body)) :
    partsOf (front ++ Text.joinWith ['/'] xs) <+: partsOf (front ++ body) := by
  obtain ⟨ys, hys⟩ := h
  have hbody : Text.joinWith ['/'] (xs ++ ys) = body := by
    rw [hys]
    exact Text.joinWith_splitAt '/' body
  by_cases hx : xs = []
  · rw [hx]
    exact (List.append_nil front).symm ▸ hfront
  by_cases hy : ys = []
  · rw [hy, List.append_nil] at hbody
    exact hbody.symm ▸ List.prefix_refl _
  · rw [← hbody, Text.joinWith_append _ hx hy, List.singleton_append, ← List.append_assoc,
      partsOf_append_cons]
    exact List.prefix_append _ _

theorem head?_joinWith_of_begins {xs : List Text} (h : xs <+: Text.splitAt '/' p)
    (hp : p.head? ≠ some '/') : (Text.joinWith ['/'] xs).head? ≠ some '/' := by
  obtain ⟨ys, hys⟩ := h
  have hjoin := Text.joinWith_splitAt '/' p
  intro hhead
  refine hp ?_
  by_cases hx : xs = []
  · rw [hx] at hhead
    cases hhead
  by_cases hy : ys = []
  · rw [← hjoin, ← hys, hy, List.append_nil]
    exact hhead
  · rw [← hjoin, ← hys, Text.joinWith_append _ hx hy, List.head?_append, hhead]
    rfl

theorem trimVoid_begins (xs : List Text) : Path.trimVoid xs <+: xs := by
  rw [Path.trimVoid, ← List.reverse_reverse xs, List.reverse_prefix, List.reverse_reverse]
  exact List.dropWhile_suffix _

/-- The parts of the parent are those that the path begins with, and both begin at the same place. -/
theorem partsOf_parent (h : Path.parent? p = some q) :
    partsOf q <+: partsOf p ∧ Path.isAbsolute q = Path.isAbsolute p := by
  have htrim : ∀ body : Text,
      Path.trimVoid (Path.trimVoid (Text.splitAt '/' body)).dropLast <+: Text.splitAt '/' body :=
    fun body => (trimVoid_begins _).trans ((List.dropLast_prefix _).trans (trimVoid_begins _))
  unfold Path.parent? at h
  split at h
  next _ front body hdivide =>
    split at h
    · -- the path is a dot, and its parent is empty
      split at h
      · next hfront =>
        cases h
        refine ⟨List.nil_prefix, ?_⟩
        split at hdivide
        · cases hdivide
          cases hfront
        · rfl
        · rfl
        · cases hdivide
          cases hfront
      · cases h
    · obtain rfl := Option.some.inj h
      split at hdivide
      · cases hdivide
        exact ⟨partsOf_cut (htrim _) List.nil_prefix, rfl⟩
      · cases hdivide
        exact ⟨partsOf_cut (htrim _) (List.prefix_refl _), rfl⟩
      · cases hdivide
        refine ⟨partsOf_cut (htrim _) ?_, rfl⟩
        exact (partsOf_append_cons ['.'] _).symm ▸ List.prefix_append _ _
      · next hslash _ _ =>
        cases hdivide
        refine ⟨partsOf_cut (htrim _) List.nil_prefix, ?_⟩
        have hp : p.head? ≠ some '/' := by
          intro hhead
          obtain ⟨r, hr⟩ := List.head?_eq_some_iff.mp hhead
          exact hslash r hr
        have hq := head?_joinWith_of_begins (htrim p) hp
        rw [Path.isAbsolute, Path.isAbsolute, beq_eq_false_iff_ne.mpr hp]
        exact beq_eq_false_iff_ne.mpr hq

end FileTree.Route

namespace Path

variable {p q : Text}

/-- Going up from `p` one comes to `q`. -/
def Above (p q : Text) : Prop :=
  Relation.TransGen (fun p q => parent? p = some q) p q

/-- The path itself, or one above it. -/
def AtOrAbove (p q : Text) : Prop :=
  Relation.ReflTransGen (fun p q => parent? p = some q) p q

theorem atOrAbove_self (p : Text) : AtOrAbove p p := .refl

theorem AtOrAbove.of_parent {r : Text} (hp : parent? p = some q) (h : AtOrAbove q r) :
    AtOrAbove p r := .head hp h

theorem AtOrAbove.eq_or_above (h : AtOrAbove p q) : q = p ∨ Above p q :=
  Relation.reflTransGen_iff_eq_or_transGen.mp h

theorem AtOrAbove.parts (h : AtOrAbove p q) :
    FileTree.Route.partsOf q <+: FileTree.Route.partsOf p ∧ isAbsolute q = isAbsolute p := by
  induction h with
  | refl => exact ⟨List.prefix_refl _, rfl⟩
  | tail _ hparent ih =>
    obtain ⟨hparts, habsolute⟩ := FileTree.Route.partsOf_parent hparent
    exact ⟨hparts.trans ih.1, habsolute.trans ih.2⟩

end Path

end QueryValidator
