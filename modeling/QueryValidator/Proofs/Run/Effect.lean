import QueryValidator.CommandLine
import QueryValidator.Proofs.Run.Paths
import QueryValidator.Proofs.Run.Writing
import QueryValidator.Proofs.Service.Session

/-!
# What a run leaves on the machine

A run on a document that is refused leaves an empty output directory, and one that succeeds leaves
its modules and the index there, whatever was there before; the rest of the machine stays as it is,
but for the directories above the output directory (`effect_of_run`). That takes an output directory
whose path does not go through anything in it (`StandsAt`).
-/

namespace QueryValidator

/-! ### Logical paths -/

namespace Schema

theorem isLogical_path {t : Schema} (h : '/' ∉ t.stem) : FileTree.Route.IsLogical t.path := by
  have hfolder : ∀ c : Category, ∀ x ∈ Text.splitAt '/' c.folder, Path.IsFileName x := by
    intro c
    cases c
    all_goals
      unfold Path.IsFileName
      decide
  intro x hx
  rw [path_eq h, Text.splitAt_append_cons, Text.splitAt_of_not_mem (isFileName_fileName h).1,
    List.mem_append, List.mem_singleton] at hx
  rcases hx with hx | rfl
  · exact hfolder t.category x hx
  · exact isFileName_fileName h

end Schema

namespace Output

open FileTree Machine

theorem isLogical_indexPath : Route.IsLogical indexPath := by
  unfold Route.IsLogical Path.IsFileName
  decide

/-! ### Runs -/

/-- The machine when the output directory has been emptied. -/
def prepared (output : Text) (w : Machine) : Machine :=
  ((prepare output : StateM Machine _) w).2

/-- What the document gives on the machine. -/
def modules (d : Document) (s : Settings) (output : Text) (w : Machine) :
    Except Violation (List Schema) :=
  generate d s (prepared output w).workingText output

/-- The output directory is at `place`, every operation on a file succeeds, and the modules have
distinct paths. -/
structure Undisturbed (d : Document) (s : Settings) (output : Text) (place : List Text)
    (w : Machine) : Prop where
  stands : StandsAt output place w
  noFault : ∀ f, ((run d s output : StateM Machine _) w).1 ≠ .error (.disk f)
  distinct : ∀ ts, modules d s output w = .ok ts → (ts.map Schema.path).Nodup

/-- The directory at `q` is one of those above the output directory. -/
def IsAncestor (output : Text) (w : Machine) (q : List Text) : Prop :=
  ∃ p, Path.Above output p ∧
    (made output w).tree.LeadsTo (made output w).workingDirectory p q

/-- What a run on the machine `w` with the result `r` leaves behind. -/
structure Effect (d : Document) (s : Settings) (output : Text) (place : List Text) (w : Machine)
    (r : Except Failure Unit) (w' : Machine) : Prop where
  /-- A refused document leaves the output directory empty. -/
  refused : ∀ v, modules d s output w = .error v →
    r = .error (.violation v) ∧ w'.tree.node? place = some (.directory [])
  /-- The files of the output directory are the modules and the index. -/
  written : ∀ ts, modules d s output w = .ok ts → r = .ok () ∧
    (∀ names content, w'.tree.label? (place ++ names) = some (.file content) ↔
      ∃ f ∈ files ts, names = Text.splitAt '/' f.1 ∧ content = Utf8.encode f.2) ∧
    ∀ names target, w'.tree.label? (place ++ names) ≠ some (.link target)
  /-- Everything else stays, and nothing is new but directories above the output directory. -/
  outside : ∀ q, ¬ place <+: q → w'.tree.label? q = w.tree.label? q ∨
    w.tree.label? q = none ∧ w'.tree.label? q = some .directory ∧ IsAncestor output w q

variable {d : Document} {s : Settings} {output : Text} {place : List Text} {w w' : Machine}

theorem outside_of_differsBelow (hstands : StandsAt output place w)
    (h : ((made output w).emptied place).DiffersBelow place w') (q : List Text)
    (hq : ¬ place <+: q) : w'.tree.label? q = w.tree.label? q ∨
      w.tree.label? q = none ∧ w'.tree.label? q = some .directory ∧ IsAncestor output w q := by
  have hmade : w'.tree.label? q = (made output w).tree.label? q :=
    (h.outside q hq).trans (label?_clear_outside hq)
  have hrun : Relation.ReflTransGen (Makes (Path.AtOrAbove output)) w (made output w) :=
    run_makeDirectories output w
  rw [hmade]
  cases hold : w.tree.label? q with
  | some l => exact Or.inl ((within_of_makes hrun).tree q l hold)
  | none =>
    cases hnew : (made output w).tree.label? q with
    | none => exact Or.inl rfl
    | some l =>
      obtain ⟨rfl, p, k, hp, hpassable, hleads⟩ := made_of_makes hrun hold hnew
      refine Or.inr ⟨rfl, rfl, p, ?_, _, resolve_eq_ok_iff.mpr ⟨hpassable, hleads.walk_content _⟩⟩
      rcases hp.eq_or_above with rfl | habove
      · -- the path itself leads to the output directory
        obtain ⟨k', hplace⟩ := leads_made hstands
        exact absurd (FileTree.Leads.functional hleads hplace ▸ List.prefix_refl q) hq
      · exact habove

theorem files_of_generate {ts : List Schema} {workingDir : Text}
    (h : generate d s workingDir output = .ok ts) (hdistinct : (ts.map Schema.path).Nodup) :
    (∀ f ∈ files ts, Route.IsLogical f.1) ∧ ((files ts).map Prod.fst).Nodup := by
  obtain ⟨hd, rfl⟩ := Document.schemas_eq_ok_iff_resolved.mp h
  generalize hts : d.resolved (Config.ofRun s d workingDir output) = ts at hdistinct
  have hslash : ∀ t ∈ ts, '/' ∉ t.stem := fun t ht => Document.slash_not_mem_stem hd rfl (hts ▸ ht)
  constructor
  · intro f hf
    rcases List.mem_append.mp hf with hf | hf
    · obtain ⟨t, ht, rfl⟩ := List.mem_map.mp hf
      exact Schema.isLogical_path (hslash t ht)
    · rw [List.mem_singleton.mp hf]
      exact isLogical_indexPath
  · rw [files, List.map_append, List.map_map]
    refine List.nodup_append.mpr ⟨hdistinct, List.pairwise_singleton _ _, ?_⟩
    intro p hp q hq
    obtain ⟨t, ht, rfl⟩ := List.mem_map.mp hp
    rw [List.mem_singleton.mp hq]
    exact Schema.path_ne_index (hslash t ht)

/-- The files that have been written are the modules and the index. -/
theorem written_of_write {base v : Machine} {k : Nat} {ts : List Schema} {paths : List Text}
    (h : Emptying base place [] v) (houtput : base.Leads output k place)
    (hlogical : ∀ f ∈ files ts, Route.IsLogical f.1) (hnodup : ((files ts).map Prod.fst).Nodup)
    (hrun : (write output ts : StateM Machine _) v = (.ok paths, w')) :
    Written base place ((files ts).map fun f => (Text.splitAt '/' f.1, Utf8.encode f.2)) w' := by
  obtain ⟨hwrites, -⟩ := write_eq_ok_iff.mp hrun
  exact written_of_writesEach (written_of_emptying h) houtput hlogical
    (fun _ _ _ => List.not_mem_nil) hnodup hwrites

theorem effect_of_refused {v : Violation} (hstands : StandsAt output place w)
    (hempty : Emptying ((made output w).emptied place) place [] w')
    (hmodules : modules d s output w = .error v) :
    Effect d s output place w (.error (.violation v)) w' where
  refused v' hv' := by
    rw [hmodules] at hv'
    cases hv'
    exact ⟨rfl, hempty.left⟩
  written ts hts := by
    rw [hmodules] at hts
    cases hts
  outside := outside_of_differsBelow hstands hempty.toDiffersBelow

theorem effect_of_written {ts : List Schema} (hstands : StandsAt output place w)
    (hwritten : Written ((made output w).emptied place) place
      ((files ts).map fun f => (Text.splitAt '/' f.1, Utf8.encode f.2)) w')
    (hmodules : modules d s output w = .ok ts) : Effect d s output place w (.ok ()) w' where
  refused v hv := by
    rw [hmodules] at hv
    cases hv
  written ts' hts' := by
    rw [hmodules] at hts'
    cases hts'
    refine ⟨rfl, fun names content => ?_, hwritten.no_link⟩
    rw [hwritten.file_iff, List.mem_map]
    simp only [Prod.mk.injEq, eq_comm]
  outside := outside_of_differsBelow hstands hwritten.toDiffersBelow

/-- **The effect of a run**: the output directory is left empty, or with the files of the run. -/
theorem effect_of_run (hnames : w.WellNamed) (h : Undisturbed d s output place w) :
    Effect d s output place w ((run d s output : StateM Machine _) w).1
      ((run d s output : StateM Machine _) w).2 := by
  obtain ⟨hstands, hfault, hdistinct⟩ := h
  obtain ⟨k, houtput⟩ := leads_of_standsAt hstands
  obtain ⟨r, hprepare⟩ : ∃ r, (prepare output : StateM Machine _) w = (r, prepared output w) :=
    ⟨_, rfl⟩
  rw [run, run_bind, hprepare] at hfault ⊢
  cases r with
  | error f => exact absurd rfl (hfault f)
  | ok _ =>
    have hempty := emptying_of_prepare hnames hstands hprepare
    have hworking : (Host.workingDirectory : StateM Machine _) (prepared output w) =
        ((prepared output w).workingText, prepared output w) := rfl
    simp only [run_bind, hworking] at hfault ⊢
    cases hmodules : modules d s output w with
    | error v =>
      have hgenerate := hmodules
      rw [modules] at hgenerate
      simp only [hgenerate, run_pure]
      exact effect_of_refused hstands hempty hmodules
    | ok ts =>
      obtain ⟨hlogical, hnodup⟩ := files_of_generate hmodules (hdistinct ts hmodules)
      have hgenerate := hmodules
      rw [modules] at hgenerate
      simp only [hgenerate, run_bind] at hfault ⊢
      cases hwrite : (write output ts : StateM Machine _) (prepared output w) with
      | mk r w' =>
        rw [hwrite] at hfault
        cases r with
        | error f => exact absurd rfl (hfault f)
        | ok paths =>
          have hwritten := written_of_write hempty houtput hlogical hnodup hwrite
          simp only [run_pure]
          exact effect_of_written hstands hwritten hmodules

end Output

end QueryValidator
