import QueryValidator.Proofs.Host.Making

/-!
# Changes below a place

An output directory is worked on through its path. As long as the machine differs from what it was
only below the directory, the path leads there (`resolve_below`), and what is done through longer
paths happens below it.
-/

namespace QueryValidator

open FileTree

namespace Machine

/-- The machine with nothing in the directory at `place`. -/
def emptied (w : Machine) (place : List Text) : Machine :=
  { w with tree := w.tree.clear place }

/-- The machine `w` is `base`, in which `place` is an empty directory, but for what is below
`place`. -/
structure DiffersBelow (base : Machine) (place : List Text) (w : Machine) : Prop where
  empty : base.tree.node? place = some (.directory [])
  top : w.tree.label? place = some .directory
  outside : ∀ a, ¬ place <+: a → w.tree.label? a = base.tree.label? a
  tracks : base.tree.Tracks base.workingDirectory w.workingDirectory

variable {base w v : Machine} {place : List Text} {t : FileTree} {here : List Text} {k : Nat}
  {output path : Text} {rest : List Text} {purpose : Purpose} {r : Target}

/-- A tree has everything that one with an empty directory at `place` has, if they differ below
`place` only. -/
theorem within_of_outside (hempty : base.tree.node? place = some (.directory []))
    (htop : t.label? place = some .directory)
    (houtside : ∀ a, ¬ place <+: a → t.label? a = base.tree.label? a) : base.tree.Within t := by
  intro a l hl
  by_cases ha : place <+: a
  · obtain ⟨below, rfl⟩ := ha
    cases below with
    | nil =>
      rw [List.append_nil, label?_of_node? hempty] at hl
      rw [List.append_nil, htop]
      exact hl
    | cons x below =>
      rw [label?, node?_append, hempty] at hl
      cases hl
  · rw [houtside a ha]
    exact hl

namespace DiffersBelow

theorem within (h : base.DiffersBelow place w) : base.tree.Within w.tree :=
  within_of_outside h.empty h.top h.outside

theorem label?_base (h : base.DiffersBelow place w) :
    base.tree.label? place = some .directory :=
  label?_of_node? h.empty

/-- A change of the tree below `place`. -/
theorem after (h : base.DiffersBelow place w) (htop : t.label? place = some .directory)
    (houtside : ∀ a, ¬ place <+: a → t.label? a = w.tree.label? a) :
    base.DiffersBelow place (w.after t) where
  empty := h.empty
  top := htop
  outside a ha := (houtside a ha).trans (h.outside a ha)
  tracks := by
    have hwithin : base.tree.Within t :=
      within_of_outside h.empty htop fun a ha => (houtside a ha).trans (h.outside a ha)
    exact h.tracks.trans ((tracks_standing t w.workingDirectory).anti hwithin)

end DiffersBelow

/-- Where a path leads that goes on from the directory is decided from there on. -/
theorem resolve_below (hempty : base.tree.node? place = some (.directory []))
    (ht : base.tree.Within t) (hhere : base.tree.Tracks base.workingDirectory here)
    (houtput : base.Leads output k place) (hparts : Route.partsOf path = Route.partsOf output ++ rest)
    (habsolute : Path.isAbsolute path = Path.isAbsolute output) (hrest : rest ≠ []) :
    t.resolve purpose here path = .ok r ↔ Passable path ∧
      t.walk purpose k (Route.ofText path).wantsDirectory (t.trail place) rest = .ok r := by
  have hway := (houtput.tracks (label?_of_node? hempty) (hhere.start _)).mono ht
  rw [resolve_eq_ok_iff, hparts, Route.start_congr habsolute, hway.walk_append hrest]

theorem resolve_join {q : Text} (hempty : base.tree.node? place = some (.directory []))
    (ht : base.tree.Within t) (hhere : base.tree.Tracks base.workingDirectory here)
    (houtput : base.Leads output k place) (hq : Route.IsLogical q) :
    t.resolve purpose here (Path.join output q) = .ok r ↔ Passable (Path.join output q) ∧
      t.walk purpose k false (t.trail place) (Text.splitAt '/' q) = .ok r := by
  have hparts := Route.partsOf_join (p := output) hq.isAbsolute
  rw [hq.partsOf] at hparts
  rw [resolve_below hempty ht hhere houtput hparts (Route.isAbsolute_join hq.isAbsolute)
    (Text.splitAt_ne_nil '/' q), Route.wantsDirectory_join hq.ne_nil hq.isAbsolute, hq.wantsDirectory]

end Machine

/-! ### Names below a directory -/

namespace FileTree

variable {t : FileTree} {purpose : Purpose} {k : Nat} {slash : Bool} {p names : List Text}
  {name : Text} {r : Target}

theorem isStep_of_walk (hname : Path.IsFileName name)
    (h : t.walk purpose k slash (t.trail p) (name :: names) = .ok r) : IsStep name := by
  have hhere : name ≠ ['.'] := by
    rintro rfl
    exact absurd hname.2.1 (by decide)
  exact (looked_of_walk hhere hname.2.2 h).1

/-- A name that is no link leads to what has the name. -/
theorem arrives_name {n : Node} (hname : Path.IsFileName name)
    (hthere : t.node? (p ++ [name]) = some n)
    (h : t.walk .entry k false (t.trail p) [name] = .ok r) : r = .node (p ++ [name]) n := by
  cases firstStep_of_walk h with
  | here => exact absurd hname.2.1 (by decide)
  | up => exact absurd rfl hname.2.2
  | enter _ hdir hwalk =>
    obtain ⟨es, hes⟩ := label?_eq_directory_iff.mp hdir
    rw [walk_nil, place_trail, entries?_trail_eq_some_iff.mpr hes] at hwalk
    rw [hthere] at hes
    cases hes
    exact (Except.ok.inj hwalk).symm
  | follow _ _ hfollows _ => exact absurd (hfollows rfl) (by decide)
  | vacant _ _ hnone _ =>
    rw [label?_of_node? hthere] at hnone
    cases hnone
  | leaf _ hn _ hr =>
    rw [hthere] at hn
    cases hn
    exact hr

/-- Where there are no links, names lead down. -/
theorem arrives_names (hlinks : ∀ q target, t.label? (p ++ q) ≠ some (.link target))
    (hnames : ∀ x ∈ names, Path.IsFileName x) (hne : names ≠ [])
    (h : t.walk purpose k slash (t.trail p) names = .ok r) :
    (r = .vacant (p ++ names) ∧ t.label? (p ++ names) = none ∧
        t.label? (p ++ names.dropLast) = some .directory) ∨
      ∃ n, r = .node (p ++ names) n ∧ t.node? (p ++ names) = some n := by
  induction names generalizing p with
  | nil => exact absurd rfl hne
  | cons x rest ih =>
    obtain ⟨hx, hrest⟩ := List.forall_mem_cons.mp hnames
    cases firstStep_of_walk h with
    | here => exact absurd hx.2.1 (by decide)
    | up => exact absurd rfl hx.2.2
    | enter _ hdir hwalk =>
      by_cases hnil : rest = []
      · subst hnil
        obtain ⟨es, hes⟩ := label?_eq_directory_iff.mp hdir
        rw [walk_nil, place_trail, entries?_trail_eq_some_iff.mpr hes] at hwalk
        exact Or.inr ⟨_, (Except.ok.inj hwalk).symm, hes⟩
      · have hlinks' : ∀ q target, t.label? (p ++ [x] ++ q) ≠ some (.link target) := by
          intro q
          rw [List.append_assoc]
          exact hlinks _
        have hbelow := ih hlinks' hrest hnil hwalk
        rw [List.append_assoc, List.append_assoc] at hbelow
        rw [List.dropLast_cons_of_ne_nil hnil]
        exact hbelow
    | follow _ hlink _ _ => exact absurd hlink (hlinks _ _)
    | vacant _ hp hnone hr =>
      refine Or.inl ⟨hr, hnone, ?_⟩
      rw [List.dropLast_singleton, List.append_nil]
      exact hp
    | leaf _ hn _ hr => exact Or.inr ⟨_, hr, hn⟩

end FileTree

end QueryValidator
