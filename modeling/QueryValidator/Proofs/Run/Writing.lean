import QueryValidator.Proofs.Run.Emptying

/-!
# The files of a run

Modules are written exactly if each of their files is (`write_eq_ok_iff`). Files that are written
below an empty directory, each with the directories above it, are all that is there besides
directories (`written_of_writesEach`): no link is on the way, so that every name leads down.
-/

namespace QueryValidator.Output

open FileTree Machine

/-- Below `place` are these files and directories, and outside everything is as on `base`. -/
structure Written (base : Machine) (place : List Text) (files : List (List Text × List UInt8))
    (w : Machine) : Prop extends base.DiffersBelow place w where
  file_iff : ∀ names content,
    w.tree.label? (place ++ names) = some (.file content) ↔ (names, content) ∈ files
  no_link : ∀ names target, w.tree.label? (place ++ names) ≠ some (.link target)

variable {base w v w' : Machine} {place : List Text} {files : List (List Text × List UInt8)}
  {output path source : Text} {k : Nat}

theorem written_of_emptying (h : Emptying base place [] w) : Written base place [] w where
  toDiffersBelow := h.toDiffersBelow
  file_iff names content := by
    refine iff_of_false ?_ List.not_mem_nil
    rw [label?, node?_append, h.left]
    cases names with
    | nil => simp [Node.at?, Node.label]
    | cons x names =>
      intro h
      cases h
  no_link names target := by
    rw [label?, node?_append, h.left]
    cases names with
    | nil => simp [Node.at?, Node.label]
    | cons x names =>
      intro h
      cases h

/-! ### Directories -/

section
variable {A : Text → Prop} {names : List Text}

/-- A new directory on the way to a file is below the output directory. -/
theorem below_of_vacant (h : Written base place files w) (houtput : base.Leads output k place)
    (hnames : ∀ x ∈ names, Path.IsFileName x) {q : Text} {a : List Text}
    (hq : Route.partsOf q <+: Route.partsOf output ++ names)
    (habsolute : Path.isAbsolute q = Path.isAbsolute output)
    (hr : w.tree.resolve .newEntry w.workingDirectory q = .ok (.vacant a)) : place <+: a := by
  have hway : w.Leads output k place := houtput.mono h.label?_base ⟨h.within, h.tracks⟩
  -- nothing can be made on the way to the output directory
  have hnot : ¬ Route.partsOf q <+: Route.partsOf output := by
    rintro ⟨back, hback⟩
    rw [Machine.Leads, ← hback, ← Route.start_congr habsolute] at hway
    obtain ⟨k', m, hfront⟩ := hway.front
    exact hfront.walk_newEntry_ne_vacant (resolve_eq_ok_iff.mp hr).2
  obtain ⟨rest, hrest⟩ : Route.partsOf output <+: Route.partsOf q :=
    (List.prefix_or_prefix_of_prefix hq (List.prefix_append _ _)).resolve_left hnot
  have hne : rest ≠ [] := by
    rintro rfl
    rw [List.append_nil] at hrest
    exact hnot (hrest ▸ List.prefix_refl _)
  have hrestNames : ∀ x ∈ rest, Path.IsFileName x := by
    rw [← hrest, List.prefix_append_right_inj] at hq
    exact fun x hx => hnames x (hq.subset hx)
  obtain ⟨-, hwalk⟩ :=
    (resolve_below h.empty h.within h.tracks houtput hrest.symm habsolute hne).mp hr
  rcases arrives_names h.no_link hrestNames hne hwalk with ⟨hplace, -, -⟩ | ⟨n, hplace, -⟩
  · cases hplace
    exact List.prefix_append _ _
  · cases hplace

theorem Written.makes (h : Written base place files w) (houtput : base.Leads output k place)
    (hnames : ∀ x ∈ names, Path.IsFileName x)
    (hA : ∀ q, A q → Route.partsOf q <+: Route.partsOf output ++ names ∧
      Path.isAbsolute q = Path.isAbsolute output)
    (hstep : Makes A w v) : Written base place files v := by
  obtain ⟨q, a, hq, hr, rfl⟩ := hstep
  have hbelow := below_of_vacant h houtput hnames (hA q hq).1 (hA q hq).2 hr
  have hlabel := label?_made hr
  obtain ⟨-, -, -, -, -, -, -, -, -, hnone⟩ := vacant_of_resolve hr
  have hne : place ≠ a := by
    rintro rfl
    rw [h.top] at hnone
    cases hnone
  constructor
  · refine h.toDiffersBelow.after ?_ fun b hb => ?_
    · rw [hlabel, if_neg hne, h.top]
    · rw [hlabel, if_neg]
      rintro rfl
      exact hb hbelow
  · intro rest content
    rw [after_tree, hlabel, ← h.file_iff]
    split
    · next ha => rw [ha, hnone]; simp
    · rfl
  · intro rest target
    rw [after_tree, hlabel]
    split
    · simp
    · exact h.no_link rest target

theorem Written.of_makes (h : Written base place files w) (houtput : base.Leads output k place)
    (hnames : ∀ x ∈ names, Path.IsFileName x)
    (hA : ∀ q, A q → Route.partsOf q <+: Route.partsOf output ++ names ∧
      Path.isAbsolute q = Path.isAbsolute output)
    (hrun : Relation.ReflTransGen (Makes A) w v) : Written base place files v := by
  induction hrun with
  | refl => exact h
  | tail _ hstep ih => exact ih.makes houtput hnames hA hstep

end

/-! ### Files -/

theorem written_of_makeParent (h : Written base place files w) (houtput : base.Leads output k place)
    (hpath : Route.IsLogical path) :
    Written base place files ((makeParent (Path.join output path) : StateM Machine _) w).2 := by
  rw [makeParent]
  cases hparent : Path.parent? (Path.join output path) with
  | none => exact h
  | some directory =>
    refine h.of_makes houtput hpath (fun q hq => ?_) (run_makeDirectories directory w)
    obtain ⟨hparts, habsolute⟩ := hq.parts
    obtain ⟨hparts', habsolute'⟩ := Route.partsOf_parent hparent
    rw [Route.partsOf_join hpath.isAbsolute, hpath.partsOf] at hparts'
    rw [Route.isAbsolute_join hpath.isAbsolute] at habsolute'
    exact ⟨hparts.trans hparts', habsolute.trans habsolute'⟩

theorem Written.put (h : Written base place files w) {names : List Text} (hne : names ≠ [])
    {content : List UInt8} (hnone : w.tree.label? (place ++ names) = none)
    (hparent : w.tree.label? (place ++ names.dropLast) = some .directory) :
    Written base place (files ++ [(names, content)])
      (w.after (w.tree.put (place ++ names) (.file content))) := by
  have hlabel : ∀ a, (w.tree.put (place ++ names) (.file content)).label? a =
      if a = place ++ names then some (.file content) else w.tree.label? a := by
    intro a
    have hsplit : place ++ names = place ++ names.dropLast ++ [names.getLast hne] := by
      rw [List.append_assoc, List.dropLast_append_getLast]
    rw [hsplit] at hnone ⊢
    refine label?_put hparent (fun m hm => ?_) (Node.isBare_file content)
    rw [label?_of_node? hm] at hnone
    cases hnone
  have hnew : ∀ c, (names, c) ∉ files := by
    intro c hc
    rw [(h.file_iff names c).mpr hc] at hnone
    cases hnone
  constructor
  · refine h.toDiffersBelow.after ?_ fun a ha => ?_
    · rw [hlabel, if_neg, h.top]
      simpa using hne
    · rw [hlabel, if_neg]
      rintro rfl
      exact ha (List.prefix_append _ _)
  · intro rest c
    rw [after_tree, hlabel, List.mem_append, List.mem_singleton, Prod.mk.injEq]
    split
    · next hrest =>
      obtain rfl := List.append_cancel_left hrest
      simp [hnew c, eq_comm]
    · next hrest =>
      have hrest' : rest ≠ names := fun he => hrest (he ▸ rfl)
      simp [hrest', h.file_iff]
  · intro rest target
    rw [after_tree, hlabel]
    split
    · simp
    · exact h.no_link rest target

theorem written_of_hostWriteFile (h : Written base place files w)
    (houtput : base.Leads output k place) (hpath : Route.IsLogical path) {content : List UInt8}
    (hnew : ∀ c, (Text.splitAt '/' path, c) ∉ files)
    (hrun : (Host.writeFile (Path.join output path) content : StateM Machine _) w = (.ok (), w')) :
    Written base place (files ++ [(Text.splitAt '/' path, content)]) w' := by
  obtain ⟨tree, htree, rfl⟩ := change_ok hrun
  rw [FileTree.writeFile] at htree
  cases hr : w.tree.resolve .file w.workingDirectory (Path.join output path) with
  | error e =>
    rw [hr] at htree
    cases htree
  | ok r =>
    obtain ⟨-, hwalk⟩ := (resolve_join h.empty h.within h.tracks houtput hpath).mp hr
    have hne := Text.splitAt_ne_nil '/' path
    rcases arrives_names h.no_link hpath hne hwalk with ⟨rfl, hnone, hparent⟩ | ⟨n, rfl, hn⟩
    · rw [hr] at htree
      cases htree
      exact h.put hne hnone hparent
    · -- what is there is no file, no link, and no directory either
      cases n with
      | file c => exact absurd ((h.file_iff _ c).mp (label?_of_node? hn)) (hnew c)
      | link target => exact absurd (label?_of_node? hn) (h.no_link _ target)
      | directory es =>
        rw [hr] at htree
        cases htree

theorem written_of_writeFile (h : Written base place files w) (houtput : base.Leads output k place)
    (hpath : Route.IsLogical path) (hnew : ∀ c, (Text.splitAt '/' path, c) ∉ files)
    (hrun : (writeFile (Path.join output path) source : StateM Machine _) w = (.ok (), w')) :
    Written base place (files ++ [(Text.splitAt '/' path, Utf8.encode source)]) w' := by
  have hparent := written_of_makeParent h houtput hpath
  rw [writeFile] at hrun
  obtain ⟨_, v, hmade, hrun⟩ := ok_of_bind (fun _ _ => ⟨_, rfl⟩) hrun
  rw [hmade] at hparent
  exact written_of_hostWriteFile hparent houtput hpath hnew (run_of_labelled hrun)

/-! ### All files -/

/-- The files are written one after another, and every write succeeds. -/
inductive WritesEach : List (Text × Text) → Machine → Machine → Prop
  | nil (w : Machine) : WritesEach [] w w
  | cons {path source : Text} {fs : List (Text × Text)} {w v w' : Machine}
      (hwrite : (writeFile path source : StateM Machine _) w = (.ok (), v))
      (hrest : WritesEach fs v w') : WritesEach ((path, source) :: fs) w w'

theorem writeFiles_eq_ok_iff {fs : List (Text × Text)} :
    (writeFiles fs : StateM Machine _) w = (.ok (), w') ↔ WritesEach fs w w' := by
  induction fs generalizing w with
  | nil =>
    constructor
    · intro h
      cases h
      exact .nil _
    · intro h
      cases h
      rfl
  | cons f fs ih =>
    obtain ⟨path, source⟩ := f
    rw [writeFiles]
    constructor
    · intro h
      obtain ⟨_, v, hwrite, hrest⟩ := ok_of_bind (fun _ _ => ⟨_, rfl⟩) h
      exact .cons hwrite (ih.mp hrest)
    · intro h
      cases h with
      | cons hwrite hrest =>
        rw [run_bind, hwrite]
        exact ih.mpr hrest

/-- Modules are written if each of their files is, and what is returned are the places of these. -/
theorem write_eq_ok_iff {schemas : List Schema} {paths : List Text} :
    (write output schemas : StateM Machine _) w = (.ok paths, w') ↔
      WritesEach (filesOf output schemas) w w' ∧ paths = (filesOf output schemas).map Prod.fst := by
  rw [← writeFiles_eq_ok_iff, write, run_bind]
  generalize filesOf output schemas = fs
  obtain ⟨r, v⟩ := (writeFiles fs : StateM Machine _) w
  cases r with
  | error e =>
    refine iff_of_false ?_ ?_
    · intro h
      cases h
    · rintro ⟨h, -⟩
      cases h
  | ok _ =>
    constructor
    · intro h
      cases h
      exact ⟨rfl, rfl⟩
    · rintro ⟨h, rfl⟩
      cases h
      rfl

/-- **The written files**: when files with distinct logical paths have been written below an empty
output directory, they are there and no others. -/
theorem written_of_writesEach (h : Written base place files w) (houtput : base.Leads output k place)
    {fs : List (Text × Text)} (hpaths : ∀ f ∈ fs, Route.IsLogical f.1)
    (hnew : ∀ f ∈ fs, ∀ c, (Text.splitAt '/' f.1, c) ∉ files) (hnodup : (fs.map Prod.fst).Nodup)
    (hrun : WritesEach (fs.map fun (path, source) => (Path.join output path, source)) w w') :
    Written base place
      (files ++ fs.map fun f => (Text.splitAt '/' f.1, Utf8.encode f.2)) w' := by
  induction fs generalizing files w with
  | nil =>
    cases hrun
    rw [List.map_nil, List.append_nil]
    exact h
  | cons f fs ih =>
    obtain ⟨path, source⟩ := f
    obtain ⟨hpath, hpaths⟩ := List.forall_mem_cons.mp hpaths
    obtain ⟨hnewPath, hnew⟩ := List.forall_mem_cons.mp hnew
    obtain ⟨hfresh, hnodup⟩ := List.nodup_cons.mp hnodup
    rw [List.map_cons] at hrun
    cases hrun with
    | cons hwrite hrest =>
      have hnext := ih (written_of_writeFile h houtput hpath hnewPath hwrite) hpaths ?_ hnodup hrest
      · rw [List.append_assoc] at hnext
        exact hnext
      · intro f hf c hc
        rcases List.mem_append.mp hc with hc | hc
        · exact hnew f hf c hc
        · have hsplit := (Prod.mk.inj (List.mem_singleton.mp hc)).1
          have hsame := congrArg (Text.joinWith ['/']) hsplit
          rw [Text.joinWith_splitAt, Text.joinWith_splitAt] at hsame
          exact hfresh (hsame ▸ List.mem_map_of_mem hf)

end QueryValidator.Output
