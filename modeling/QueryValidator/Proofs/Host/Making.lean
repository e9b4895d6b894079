import QueryValidator.Proofs.Host.Routes
import QueryValidator.Proofs.Host.Ways

/-!
# Making directories

To make a directory with the ones above it is to make single directories, each where nothing was
(`run_makeDirectories`). What was on the machine stays, and every directory that is new is where one
of the paths that were asked for leads (`made_of_makes`).
-/

namespace QueryValidator

open FileTree

/-! ### Paths on a machine -/

namespace FileTree

variable {t : FileTree} {purpose : Purpose} {here : List Text} {path : Text} {r : Target}

/-- The kernel takes the path at all. -/
structure Passable (path : Text) : Prop where
  noNul : path.contains (Char.ofNat 0) = false
  ne_nil : path ≠ []
  fits : Text.utf8Size path ≤ maxPath

/-- The path leads to a directory at `place`. -/
def LeadsTo (t : FileTree) (here : List Text) (path : Text) (place : List Text) : Prop :=
  ∃ es, t.resolve .content here path = .ok (.node place (.directory es))

theorem resolve_eq_ok_iff : t.resolve purpose here path = .ok r ↔
    Passable path ∧ t.walk purpose maxLinks (Route.ofText path).wantsDirectory
      (t.trail ((Route.ofText path).start here)) (Route.partsOf path) = .ok r := by
  have hresolve : t.resolve purpose here path =
      if path.contains (Char.ofNat 0) then .error .nulInName
      else if path.isEmpty then .error .notFound
      else if Text.utf8Size path > maxPath then .error .nameTooLong
      else t.walk purpose maxLinks (Route.ofText path).wantsDirectory
        (t.trail ((Route.ofText path).start here)) (Route.partsOf path) := by
    rw [← trail_start]
    rfl
  rw [hresolve]
  constructor
  · intro h
    split at h
    · cases h
    · next hnul =>
      split at h
      · cases h
      · next hempty =>
        split at h
        · cases h
        · next hlong =>
          refine ⟨⟨Bool.not_eq_true _ ▸ hnul, fun hnil => hempty (hnil ▸ rfl), ?_⟩, h⟩
          exact Nat.not_lt.mp hlong
  · rintro ⟨⟨hnul, hne, hfits⟩, h⟩
    rw [if_neg (Bool.not_eq_true _ ▸ hnul), if_neg (fun he => hne (List.isEmpty_iff.mp he)),
      if_neg (Nat.not_lt.mpr hfits)]
    exact h

end FileTree

namespace Machine

variable {w v u : Machine} {path : Text} {k : Nat} {place : List Text}

/-- The path is a way on the machine, from its current directory if it is relative. -/
def Leads (w : Machine) (path : Text) (k : Nat) (place : List Text) : Prop :=
  w.tree.Leads maxLinks ((Route.ofText path).start w.workingDirectory) (Route.partsOf path) k place

/-- Everything on `w` is on `v` as well, and its current directory is the same as far as there is
one. -/
structure Within (w v : Machine) : Prop where
  tree : w.tree.Within v.tree
  tracks : w.tree.Tracks w.workingDirectory v.workingDirectory

theorem Within.refl (w : Machine) : w.Within w := ⟨.refl _, .refl _ _⟩

theorem Within.trans (h : w.Within v) (h' : v.Within u) : w.Within u :=
  ⟨h.tree.trans h'.tree, h.tracks.trans (h'.tracks.anti h.tree)⟩

/-- A path to a directory leads there on every machine that has what is on this one. -/
theorem Leads.mono (hplace : w.tree.label? place = some .directory) (hw : w.Within v)
    (h : w.Leads path k place) : v.Leads path k place :=
  (FileTree.Leads.tracks h hplace (hw.tracks.start _)).mono hw.tree

/-- The machine with another tree. -/
def after (w : Machine) (tree : FileTree) : Machine :=
  { w with tree, workingDirectory := standing tree [] w.workingDirectory }

@[simp] theorem after_tree (w : Machine) (tree : FileTree) : (w.after tree).tree = tree := rfl

theorem within_after {tree : FileTree} (h : w.tree.Within tree) : w.Within (w.after tree) :=
  ⟨h, (tracks_standing tree w.workingDirectory).anti h⟩

theorem change_eq (f : FileTree → List Text → Except DiskFault FileTree) (w : Machine) :
    change f w = match f w.tree w.workingDirectory with
      | .ok tree => (.ok (), w.after tree)
      | .error e => (.error e, w) := rfl

/-- A change that succeeds leaves the machine with the changed tree. -/
theorem change_ok {f : FileTree → List Text → Except DiskFault FileTree}
    (h : change f w = (.ok (), v)) :
    ∃ tree, f w.tree w.workingDirectory = .ok tree ∧ v = w.after tree := by
  rw [change_eq] at h
  cases hf : f w.tree w.workingDirectory with
  | error e =>
    rw [hf] at h
    cases h
  | ok tree =>
    rw [hf] at h
    cases h
    exact ⟨tree, rfl, rfl⟩

theorem run_bind {α β : Type} (x : StateM Machine α) (f : α → StateM Machine β) (w : Machine) :
    (x >>= f) w = f (x w).1 (x w).2 := rfl

/-- If a failure is passed on, what succeeds does so step by step. -/
theorem ok_of_bind {ε ε' α β : Type} {x : StateM Machine (Except ε α)}
    {f : Except ε α → StateM Machine (Except ε' β)} {b : β}
    (hfail : ∀ e v, ∃ e', (f (.error e) v).1 = .error e') (h : (x >>= f) w = (.ok b, u)) :
    ∃ a v, x w = (.ok a, v) ∧ f (.ok a) v = (.ok b, u) := by
  rw [run_bind] at h
  cases hx : x w with
  | mk r v =>
    rw [hx] at h
    cases r with
    | error e =>
      obtain ⟨e', he⟩ := hfail e v
      rw [h] at he
      cases he
    | ok a => exact ⟨a, v, rfl, h⟩

theorem run_pure {α : Type} (a : α) (w : Machine) : (pure a : StateM Machine α) w = (a, w) := rfl

/-! ### Single directories -/

/-- One directory is made where nothing is, at one of the paths that `A` allows. -/
def Makes (A : Text → Prop) (w v : Machine) : Prop :=
  ∃ path place, A path ∧
    w.tree.resolve .newEntry w.workingDirectory path = .ok (.vacant place) ∧
    v = w.after (w.tree.put place (.directory []))

variable {A : Text → Prop}

/-- What one new directory is: it is the last name of the path, in a directory that the path before
leads to. -/
theorem vacant_of_resolve
    (h : w.tree.resolve .newEntry w.workingDirectory path = .ok (.vacant place)) :
    ∃ front x k q, Route.partsOf path = front ++ [x] ∧ IsStep x ∧ place = q ++ [x] ∧
      w.tree.Leads maxLinks ((Route.ofText path).start w.workingDirectory) front k q ∧
      w.tree.label? q = some .directory ∧ w.tree.label? place = none := by
  obtain ⟨front, x, k, q, hparts, hleads, hx, hplace, hq, hnone⟩ :=
    leads_of_walk_vacant (resolve_eq_ok_iff.mp h).2
  exact ⟨front, x, k, q, hparts, hx, hplace, hleads, hq, hnone⟩

theorem label?_made (h : w.tree.resolve .newEntry w.workingDirectory path = .ok (.vacant place))
    (a : List Text) : (w.tree.put place (.directory [])).label? a =
      if a = place then some .directory else w.tree.label? a := by
  obtain ⟨-, x, -, q, -, -, rfl, -, hq, hnone⟩ := vacant_of_resolve h
  refine label?_put hq (fun m hm => ?_) Node.isBare_emptied
  rw [label?_of_node? hm] at hnone
  cases hnone

theorem Makes.within (h : Makes A w v) : w.Within v := by
  obtain ⟨path, place, -, hresolve, rfl⟩ := h
  refine within_after fun a l hl => ?_
  rw [label?_made hresolve]
  obtain ⟨-, -, -, -, -, -, -, -, -, hnone⟩ := vacant_of_resolve hresolve
  have hne : a ≠ place := by
    rintro rfl
    rw [hnone] at hl
    cases hl
  rw [if_neg hne]
  exact hl

theorem within_of_makes (h : Relation.ReflTransGen (Makes A) w v) : w.Within v := by
  induction h with
  | refl => exact .refl w
  | tail _ hstep ih => exact ih.trans hstep.within

/-- Every directory that is new is where one of the paths leads. -/
theorem made_of_makes (h : Relation.ReflTransGen (Makes A) w v) {a : List Text} {l : Label}
    (hnone : w.tree.label? a = none) (hl : v.tree.label? a = some l) :
    l = .directory ∧ ∃ path k, A path ∧ Passable path ∧ v.Leads path k a := by
  induction h generalizing l with
  | refl =>
    rw [hnone] at hl
    cases hl
  | tail hrun hstep ih =>
    next v v' =>
    obtain ⟨path, place, hpath, hresolve, rfl⟩ := id hstep
    rw [after_tree, label?_made hresolve] at hl
    split at hl
    · next ha =>
      subst ha
      cases hl
      obtain ⟨front, x, k, q, hparts, hx, rfl, hfront, hq, -⟩ := vacant_of_resolve hresolve
      refine ⟨rfl, path, k, hpath, (resolve_eq_ok_iff.mp hresolve).1, ?_⟩
      have hmono := (hfront.tracks hq (hstep.within.tracks.start _)).mono hstep.within.tree
      rw [Leads, hparts]
      refine hmono.append (.enter hx ?_ .nil)
      rw [after_tree, label?_made hresolve, if_pos rfl]
    · obtain ⟨rfl, path', k, hpath', hpassable, hleads⟩ := ih hl
      exact ⟨rfl, path', k, hpath', hpassable, hleads.mono hl hstep.within⟩

/-! ### Names -/

/-- Every entry has a name that a file can have. -/
def WellNamed (w : Machine) : Prop :=
  ∀ p x l, w.tree.label? (p ++ [x]) = some l → Path.IsFileName x

/-- A node below which every entry has such a name. -/
inductive NamedNode : Node → Prop
  | file (content : List UInt8) : NamedNode (.file content)
  | link (target : Text) : NamedNode (.link target)
  | directory (es : List (Text × Node)) (names : ∀ e ∈ es, Path.IsFileName e.1)
      (below : ∀ e ∈ es, NamedNode e.2) : NamedNode (.directory es)

theorem NamedNode.isFileName {n m : Node} {p : List Text} {x : Text} (h : NamedNode n)
    (hx : n.at? (p ++ [x]) = some m) : Path.IsFileName x := by
  have hmem : ∀ {es : List (Text × Node)} {y : Text} {n : Node}, es.lookup y = some n →
      (y, n) ∈ es := by
    intro es y n hlookup
    obtain ⟨before, after, rfl, -⟩ := List.lookup_eq_some_iff.mp hlookup
    exact List.mem_append_right _ List.mem_cons_self
  induction p generalizing n with
  | nil =>
    cases h with
    | file content => cases hx
    | link target => cases hx
    | directory es names below =>
      obtain ⟨node, hnode, -⟩ := Option.bind_eq_some_iff.mp hx
      exact names _ (hmem hnode)
  | cons y p ih =>
    cases h with
    | file content => cases hx
    | link target => cases hx
    | directory es names below =>
      obtain ⟨node, hnode, hrest⟩ := Option.bind_eq_some_iff.mp hx
      exact ih (below _ (hmem hnode)) hrest

theorem wellNamed_of_namedNode (h : NamedNode (.directory w.tree.entries)) : w.WellNamed := by
  intro p x l hl
  obtain ⟨m, hm, -⟩ := Option.map_eq_some_iff.mp hl
  exact h.isFileName hm

theorem isFileName_of_mem_partsOf {x : Text} (h : x ∈ Route.partsOf path) (hx : IsStep x) :
    Path.IsFileName x := by
  obtain ⟨hsplit, hne⟩ := List.mem_filter.mp h
  refine ⟨Text.not_mem_of_mem_splitAt hsplit, ?_, hx.ne_up⟩
  have hnil : x ≠ [] := by
    rintro rfl
    cases hne
  rw [Path.isVoid, Bool.or_eq_false_iff]
  exact ⟨beq_eq_false_iff_ne.mpr hnil, beq_eq_false_iff_ne.mpr hx.ne_here⟩

theorem WellNamed.makes (hw : w.WellNamed) (h : Makes A w v) : v.WellNamed := by
  obtain ⟨path, place, -, hresolve, rfl⟩ := h
  intro p x l hl
  rw [after_tree, label?_made hresolve] at hl
  split at hl
  · next hplace =>
    obtain ⟨front, y, -, q, hparts, hy, rfl, -⟩ := vacant_of_resolve hresolve
    obtain rfl := List.singleton_inj.mp (List.append_inj' hplace rfl).2
    have hmem : x ∈ Route.partsOf path := by
      rw [hparts]
      exact List.mem_append_right _ List.mem_cons_self
    exact isFileName_of_mem_partsOf hmem hy
  · exact hw p x l hl

theorem WellNamed.of_makes (hw : w.WellNamed) (h : Relation.ReflTransGen (Makes A) w v) :
    v.WellNamed := by
  induction h with
  | refl => exact hw
  | tail _ hstep ih => exact ih.makes hstep

/-! ### Several directories -/

/-- The computation makes directories at paths that `A` allows and does nothing else, and its result
is in `Q`. -/
def OnlyMakes {α : Type} (A : Text → Prop) (Q : α → Prop) (x : StateM Machine α) : Prop :=
  ∀ w, Relation.ReflTransGen (Makes A) w (x w).2 ∧ Q (x w).1

namespace OnlyMakes

variable {α β : Type} {Q : α → Prop} {R : β → Prop}

theorem pure {a : α} (h : Q a) : OnlyMakes A Q (pure a : StateM Machine α) :=
  fun _ => ⟨.refl, h⟩

theorem bind {x : StateM Machine α} {f : α → StateM Machine β} (hx : OnlyMakes A Q x)
    (hf : ∀ a, Q a → OnlyMakes A R (f a)) : OnlyMakes A R (x >>= f) := by
  intro w
  obtain ⟨hrun, hq⟩ := hx w
  obtain ⟨hrun', hr⟩ := hf _ hq (x w).2
  exact ⟨hrun.trans hrun', hr⟩

theorem makeDirectory (h : A path) :
    OnlyMakes A (fun _ => True) (Host.makeDirectory path : StateM Machine _) := by
  intro w
  refine ⟨?_, trivial⟩
  show Relation.ReflTransGen (Makes A) w (change (fun t here => t.makeDirectory here path) w).2
  rw [change_eq, FileTree.makeDirectory]
  cases hresolve : w.tree.resolve .newEntry w.workingDirectory path with
  | error e => exact .refl
  | ok r =>
    cases r with
    | node place n => exact .refl
    | vacant place => exact .single ⟨path, place, h, hresolve, rfl⟩

theorem isDirectory : OnlyMakes A (fun _ => True) (Host.isDirectory path : StateM Machine _) :=
  fun _ => ⟨.refl, trivial⟩

theorem makeEach {paths : List Text} (h : ∀ p ∈ paths, A p) :
    OnlyMakes A (fun _ => True) (Host.makeEach paths : StateM Machine _) := by
  induction paths with
  | nil => exact .pure trivial
  | cons d ds ih =>
    rw [Host.makeEach]
    refine .bind (ih fun p hp => h p (List.mem_cons_of_mem d hp)) fun made _ => ?_
    cases made with
    | error e => exact .pure trivial
    | ok _ =>
      refine .bind (.makeDirectory (h d List.mem_cons_self)) fun made _ => ?_
      cases made with
      | ok _ => exact .pure trivial
      | error e =>
        cases e with
        | «exists» =>
          refine .bind .isDirectory fun there _ => ?_
          cases there <;> exact .pure trivial
        | _ => exact .pure trivial

theorem makeFirst (n : Nat) (h : ∀ p, Path.AtOrAbove path p → A p) :
    OnlyMakes A (fun r => ∀ missing, r = .ok missing → ∀ p ∈ missing, A p)
      (Host.makeFirst n path : StateM Machine _) := by
  have hnone : ∀ missing : List Text, Except.ok (ε := DiskFault) [] = .ok missing →
      ∀ p ∈ missing, A p := by
    intro missing hmissing
    cases hmissing
    exact List.forall_mem_nil _
  have herror : ∀ (e : DiskFault) (missing : List Text), Except.error e = .ok missing →
      ∀ p ∈ missing, A p := by
    intro e missing hmissing
    cases hmissing
  induction n generalizing path with
  | zero => exact .pure hnone
  | succ n ih =>
    rw [Host.makeFirst]
    cases hparent : Path.parent? path with
    | none => exact .pure hnone
    | some above =>
      refine .bind (.makeDirectory (h path (Path.atOrAbove_self path))) fun made _ => ?_
      cases made with
      | ok _ => exact .pure hnone
      | error e =>
        cases e with
        | notFound =>
          refine .bind (ih fun p hp => h p (hp.of_parent hparent)) fun missing hmissing => ?_
          refine .pure fun paths hpaths => ?_
          cases missing with
          | error e => cases hpaths
          | ok missing =>
            cases hpaths
            rw [List.forall_mem_cons]
            exact ⟨h path (Path.atOrAbove_self path), hmissing missing rfl⟩
        | «exists» =>
          refine .bind .isDirectory fun there _ => ?_
          cases there
          · exact .pure (herror _)
          · exact .pure hnone
        | _ => exact .pure (herror _)

end OnlyMakes

/-- To make a directory with the ones above it is to make directories at its path and at the paths
above. -/
theorem run_makeDirectories (path : Text) (w : Machine) :
    Relation.ReflTransGen (Makes (Path.AtOrAbove path)) w
      ((Host.makeDirectories path : StateM Machine _) w).2 := by
  have hmakes : OnlyMakes (Path.AtOrAbove path) (fun _ => True)
      (Host.makeDirectories path : StateM Machine _) := by
    rw [Host.makeDirectories]
    refine .bind (.makeFirst path.length fun _ hp => hp) fun missing hmissing => ?_
    cases missing with
    | error e => exact .pure trivial
    | ok missing => exact .makeEach (hmissing missing rfl)
  exact (hmakes w).1

end Machine

end QueryValidator
