import QueryValidator.Proofs.Host.Below
import QueryValidator.Run.Output

/-!
# The emptied output directory

Before a run makes its modules it removes what is in the output directory, each entry through the
path of the directory. That empties the directory at a place if the path does not go through anything
that is in it (`StandsAt`): it leads there before and after (`emptied_of_prepare`).
-/

namespace QueryValidator.Output

open FileTree Machine

/-- The machine with the output directory made. -/
def made (output : Text) (w : Machine) : Machine :=
  ((Host.makeDirectories output : StateM Machine _) w).2

/-- Once it is made, the output directory is at `place`, and its path still leads there when nothing
is in it. -/
def StandsAt (output : Text) (place : List Text) (w : Machine) : Prop :=
  (made output w).tree.label? place = some .directory ∧
    ((made output w).tree.clear place).LeadsTo (made output w).workingDirectory output place

variable {output name : Text} {place : List Text} {w w' base : Machine} {k : Nat}
  {es : List (Text × Node)} {n : Node}

theorem leads_of_standsAt (h : StandsAt output place w) :
    ∃ k, ((made output w).emptied place).Leads output k place := by
  obtain ⟨-, es, hes⟩ := h
  exact leads_of_walk (resolve_eq_ok_iff.mp hes).2

theorem differsBelow_made (h : StandsAt output place w) :
    ((made output w).emptied place).DiffersBelow place (made output w) where
  empty := node?_clear h.1
  top := h.1
  outside _ ha := (label?_clear_outside ha).symm
  tracks := .refl _ _

/-- A path that goes down by names, and through no links, does not go through what is in the
directory. -/
theorem standsAt_of_names {start : List Text} (hpassable : Passable output)
    (hstart : (Route.ofText output).start (made output w).workingDirectory = start)
    (hsteps : ∀ x ∈ Route.partsOf output, IsStep x)
    (hdirs : ∀ front, front <+: Route.partsOf output →
      (made output w).tree.label? (start ++ front) = some .directory) :
    StandsAt output (start ++ Route.partsOf output) w := by
  have htop := hdirs _ (List.prefix_refl _)
  have hcleared : ∀ front, front <+: Route.partsOf output →
      ((made output w).tree.clear (start ++ Route.partsOf output)).label? (start ++ front) =
        some .directory := by
    intro front hfront
    by_cases hall : front = Route.partsOf output
    · rw [hall]
      exact label?_of_node? (node?_clear htop)
    · rw [label?_clear_outside]
      · exact hdirs front hfront
      · rw [List.prefix_append_right_inj]
        exact fun hback => hall (hfront.eq_of_length_le hback.length_le)
  subst hstart
  exact ⟨htop, _, resolve_eq_ok_iff.mpr
    ⟨hpassable, (leads_of_names hsteps hcleared).walk_content _⟩⟩

/-- The path of the output directory leads to it when it has been made. -/
theorem leads_made (h : StandsAt output place w) : ∃ k, (made output w).Leads output k place := by
  obtain ⟨k, houtput⟩ := leads_of_standsAt h
  exact ⟨k, houtput.mono (label?_of_node? (node?_clear h.1))
    ⟨(differsBelow_made h).within, .refl _ _⟩⟩

/-! ### Entries -/

theorem labelled_eq_ok_iff {α : Type} {task : DiskTask} {path : Text} {r : Except DiskFault α}
    {a : α} : labelled task path r = .ok a ↔ r = .ok a := by
  cases r <;> simp [labelled, Except.mapError]

/-- An operation that is labelled is run as it is. -/
theorem run_of_labelled {x : StateM Machine (Except DiskFault Unit)} {task : DiskTask} {path : Text}
    (h : (x >>= fun r => pure (labelled task path r)) w = (.ok (), w')) : x w = (.ok (), w') := by
  rw [run_bind, run_pure] at h
  obtain ⟨hr, rfl⟩ := Prod.mk.inj h
  exact Prod.ext (labelled_eq_ok_iff.mp hr) rfl

/-- The run of the removals: of the entries of the directory those of `es` are left. -/
structure Emptying (base : Machine) (place : List Text) (es : List (Text × Node)) (w : Machine) :
    Prop extends base.DiffersBelow place w where
  left : w.tree.node? place = some (.directory es)

theorem Emptying.after (h : Emptying base place es w) {t : FileTree} {es' : List (Text × Node)}
    (hleft : t.node? place = some (.directory es'))
    (houtside : ∀ a, ¬ place <+: a → t.label? a = w.tree.label? a) :
    Emptying base place es' (w.after t) where
  toDiffersBelow := h.toDiffersBelow.after (label?_of_node? hleft) houtside
  left := hleft

theorem alterEntry_head (change : Option Node → Option Node) :
    Node.alterEntry name change ((name, n) :: es) =
      (change (some n)).toList.map (name, ·) ++ es :=
  if_pos rfl

theorem not_above_entry {a : List Text} (h : ¬ place <+: a) : ¬ place ++ [name] <+: a :=
  fun ha => h ((List.prefix_append place [name]).trans ha)

/-- The path of an entry leads to it. -/
theorem resolve_entry (h : Emptying base place ((name, n) :: es) w)
    (houtput : base.Leads output k place) (hname : Path.IsFileName name) {r : Target}
    (hr : w.tree.resolve .entry w.workingDirectory (Path.join output name) = .ok r) :
    r = .node (place ++ [name]) n := by
  obtain ⟨-, hwalk⟩ :=
    (resolve_join h.empty h.within h.tracks houtput (Route.isLogical_name hname)).mp hr
  rw [Text.splitAt_of_not_mem hname.1] at hwalk
  refine arrives_name hname ?_ hwalk
  rw [node?_of_directory h.left]
  exact List.lookup_cons_self

theorem emptying_of_removeFile (h : Emptying base place ((name, n) :: es) w)
    (houtput : base.Leads output k place) (hname : Path.IsFileName name)
    (hrun : (Host.removeFile (Path.join output name) : StateM Machine _) w = (.ok (), w')) :
    Emptying base place es w' := by
  obtain ⟨tree, htree, rfl⟩ := change_ok hrun
  rw [FileTree.removeFile] at htree
  cases hr : w.tree.resolve .entry w.workingDirectory (Path.join output name) with
  | error e =>
    rw [hr] at htree
    cases htree
  | ok r =>
    rw [hr, resolve_entry h houtput hname hr] at htree
    have htree' : tree = w.tree.remove (place ++ [name]) := by
      cases n <;> cases htree <;> rfl
    rw [htree']
    refine h.after ?_ fun a ha => label?_alter_outside (not_above_entry ha)
    rw [remove, node?_alter_below h.left, alterEntry_head]
    rfl

/-- When the directory has been emptied its path leads to it again, and it can be taken away. -/
theorem emptying_of_removeDirectory (h : Emptying base place ((name, n) :: es) w)
    (houtput : base.Leads output k place) (hname : Path.IsFileName name)
    (hrun : (Host.removeDirectory (Path.join output name) : StateM Machine _) w = (.ok (), w')) :
    Emptying base place es w' := by
  obtain ⟨tree, htree, rfl⟩ := change_ok hrun
  rw [FileTree.removeDirectory] at htree
  cases hr : w.tree.resolve .entry w.workingDirectory (Path.join output name) with
  | error e =>
    rw [hr] at htree
    cases htree
  | ok r =>
    rw [hr, resolve_entry h houtput hname hr] at htree
    cases n with
    | file content => cases htree
    | link target => cases htree
    | directory inside =>
      have hleft : (w.tree.clear (place ++ [name])).node? place =
          some (.directory ((name, .directory []) :: es)) := by
        rw [clear, node?_alter_below h.left, alterEntry_head]
        rfl
      have houtside : ∀ a, ¬ place <+: a →
          (w.tree.clear (place ++ [name])).label? a = w.tree.label? a :=
        fun a ha => label?_clear_outside (not_above_entry ha)
      have hagain : (w.tree.clear (place ++ [name])).resolve .entry w.workingDirectory
          (Path.join output name) = .ok (.node (place ++ [name]) (.directory [])) := by
        obtain ⟨hpassable, hwalk⟩ :=
          (resolve_join h.empty h.within h.tracks houtput (Route.isLogical_name hname)).mp hr
        refine (resolve_join h.empty (h.after hleft houtside).within h.tracks houtput
          (Route.isLogical_name hname)).mpr ⟨hpassable, ?_⟩
        rw [Text.splitAt_of_not_mem hname.1] at hwalk ⊢
        have hat := (node?_of_directory hleft name).trans List.lookup_cons_self
        rw [after_tree, walk_enter (isStep_of_walk hname hwalk) (label?_of_node? hat)
          (Or.inr (by decide)), walk_nil, place_trail, entries?_trail_eq_some_iff.mpr hat]
        rfl
      simp only [hagain] at htree
      cases htree
      refine h.after ?_ fun a ha => ?_
      · rw [remove, node?_alter_below hleft, alterEntry_head]
        rfl
      · rw [remove, label?_alter_outside (not_above_entry ha)]
        exact houtside a ha

theorem emptying_of_removeEntry (h : Emptying base place ((name, n) :: es) w)
    (houtput : base.Leads output k place) (hname : Path.IsFileName name)
    (hrun : (removeEntry output ⟨name, n.isDirectory⟩ : StateM Machine _) w = (.ok (), w')) :
    Emptying base place es w' := by
  rw [removeEntry] at hrun
  cases hdir : n.isDirectory with
  | true =>
    rw [hdir] at hrun
    exact emptying_of_removeDirectory h houtput hname (run_of_labelled hrun)
  | false =>
    rw [hdir] at hrun
    exact emptying_of_removeFile h houtput hname (run_of_labelled hrun)

/-! ### The whole directory -/

theorem emptying_of_removeEntries (h : Emptying base place es w)
    (houtput : base.Leads output k place) (hnames : ∀ e ∈ es, Path.IsFileName e.1)
    (hrun : (removeEntries output (es.map fun (name, node) => ⟨name, node.isDirectory⟩) :
      StateM Machine _) w = (.ok (), w')) :
    Emptying base place [] w' := by
  induction es generalizing w with
  | nil =>
    cases hrun
    exact h
  | cons e es ih =>
    obtain ⟨name, n⟩ := e
    obtain ⟨hname, hrest⟩ := List.forall_mem_cons.mp hnames
    rw [List.map_cons, removeEntries] at hrun
    obtain ⟨_, v, hremove, hrun⟩ := ok_of_bind (fun _ _ => ⟨_, rfl⟩) hrun
    exact ih (emptying_of_removeEntry h houtput hname hremove) hrest hrun

theorem resolve_made (h : StandsAt output place w)
    (hes : (made output w).tree.node? place = some (.directory es)) :
    (made output w).tree.resolve .content (made output w).workingDirectory output =
      .ok (.node place (.directory es)) := by
  obtain ⟨k, hway⟩ := leads_made h
  have hwalk := FileTree.Leads.walk_content hway (Route.ofText output).wantsDirectory
  rw [entries?_trail_eq_some_iff.mpr hes] at hwalk
  obtain ⟨-, _, hempty⟩ := h
  exact resolve_eq_ok_iff.mpr ⟨(resolve_eq_ok_iff.mp hempty).1, hwalk⟩

/-- **The emptied directory**: when the output directory has been prepared it is there and empty, and
the machine is otherwise as it was when the directory had been made. -/
theorem emptying_of_prepare (hnames : w.WellNamed) (hstands : StandsAt output place w)
    (hrun : (prepare output : StateM Machine _) w = (.ok (), w')) :
    Emptying ((made output w).emptied place) place [] w' := by
  obtain ⟨k, houtput⟩ := leads_of_standsAt hstands
  obtain ⟨es, hes⟩ := label?_eq_directory_iff.mp hstands.1
  have hentries : (Host.entries output : StateM Machine _) (made output w) =
      (.ok (es.map fun (name, node) => ⟨name, node.isDirectory⟩), made output w) := by
    show ((made output w).tree.entriesOf (made output w).workingDirectory output, made output w) = _
    rw [entriesOf, resolve_made hstands hes]
  have hnamed : ∀ e ∈ es, Path.IsFileName e.1 := by
    intro e he
    cases hlookup : es.lookup e.1 with
    | none =>
      have hne := List.lookup_eq_none_iff.mp hlookup e he
      simp at hne
    | some m =>
      rw [← node?_of_directory hes] at hlookup
      exact hnames.of_makes (run_makeDirectories output w) place e.1 m.label
        (label?_of_node? hlookup)
  rw [prepare] at hrun
  obtain ⟨_, v, hmake, hrun⟩ := ok_of_bind (fun _ _ => ⟨_, rfl⟩) hrun
  obtain rfl : made output w = v := congrArg Prod.snd hmake
  obtain ⟨entries, v, hread, hrun⟩ := ok_of_bind (fun _ _ => ⟨_, rfl⟩) hrun
  rw [hentries] at hread
  cases hread
  exact emptying_of_removeEntries ⟨differsBelow_made hstands, hes⟩ houtput hnamed hrun

end QueryValidator.Output
