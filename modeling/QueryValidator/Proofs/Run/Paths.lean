import QueryValidator.Proofs.Module.Location
import QueryValidator.Proofs.Name.ObjectNames
import QueryValidator.Proofs.Run.Resolved
import QueryValidator.Proofs.Text.Identifier

/-!
# Paths of the modules of a run

The modules of a run are written to their paths, and of two modules with the same path only one is
left. Their paths are distinct as long as the names of the document are, with one exception: on a
document database the input type of a raw operation is written under its alias, which another input
type may have for its own name (`path_eq_iff_collide`).
-/

namespace QueryValidator.Document

variable {d : Document} {config : Config} {ts : List Schema}

/-! ### Stems -/

theorem isIdentifier_of_mem_inputObjects (hd : d.Writable) {o : InputObject}
    (ho : o ∈ d.inputObjects) : Text.isIdentifier o.name = true := by
  obtain ⟨t, ht, rfl⟩ := List.mem_map.mp ho
  rw [InputObject.markRequired_name]
  exact hd.inputName t ht

/-- The stems of a run are names of files. -/
theorem slash_not_mem_stem (hd : d.Writable)
    (hraw : config.rawOperations = rawOperations d.mappings) {t : Schema}
    (ht : t ∈ d.resolved config) : '/' ∉ t.stem := by
  rcases List.mem_append.mp ht with ht | ht
  · rcases List.mem_append.mp ht with ht | ht
    · obtain ⟨e, he, rfl⟩ := List.mem_map.mp ht
      exact Text.not_mem_of_isIdentifier (hd.enumName e he) rfl
    · obtain ⟨o, ho, rfl⟩ := List.mem_map.mp ht
      have hname := Text.not_mem_of_isIdentifier (c := '/')
        (isIdentifier_of_mem_inputObjects hd ho) rfl
      exact ObjectNames.not_mem_stem hraw hname (by decide) (by decide)
  · obtain ⟨o, ho, rfl⟩ := List.mem_map.mp ht
    obtain ⟨m, hm, -, haction⟩ := mem_operations_iff.mp ho
    exact Text.not_mem_of_isIdentifier (hd.actionName m hm _ _ haction) rfl

/-! ### Collisions -/

/-- The modules are those of two input types, of which one has the name of the other for its
alias. -/
def Collide (d : Document) (config : Config) (t u : Schema) : Prop :=
  config.provider = .mongodb ∧
    ∃ o ∈ d.inputObjects, ∃ p ∈ d.inputObjects, o.schema config = .ok t ∧ p.schema config = .ok u ∧
      (RawAlias.Meets d.mappings o.name p.name ∨ RawAlias.Meets d.mappings p.name o.name)

theorem Collide.symm {t u : Schema} (h : d.Collide config t u) : d.Collide config u t := by
  obtain ⟨hprovider, o, ho, p, hp, hot, hpu, hmeets⟩ := h
  exact ⟨hprovider, p, hp, o, ho, hpu, hot, hmeets.symm⟩

theorem schema_of_mem_inputObjects (hrun : d.schemas config = .ok ts) {o : InputObject}
    (ho : o ∈ d.inputObjects) : o.schema config = .ok (o.resolved config) := by
  obtain ⟨t, -, ht⟩ := exists_object_schema hrun ho
  rw [ht, (InputObject.schema_eq_ok_iff.mp ht).2]

theorem path_eq_of_collide (hd : d.Writable)
    (hraw : config.rawOperations = rawOperations d.mappings) {t u : Schema}
    (h : d.Collide config t u) : t.path = u.path := by
  obtain ⟨hprovider, o, ho, p, hp, hot, hpu, hmeets⟩ := h
  have hslash : ∀ q ∈ d.inputObjects, '/' ∉ (q.resolved config).stem := by
    intro q hq
    refine slash_not_mem_stem hd hraw (List.mem_append_left _ (List.mem_append_right _ ?_))
    exact List.mem_map_of_mem hq
  obtain ⟨-, rfl⟩ := InputObject.schema_eq_ok_iff.mp hot
  obtain ⟨-, rfl⟩ := InputObject.schema_eq_ok_iff.mp hpu
  refine (Schema.path_eq_path_iff (hslash o ho) (hslash p hp)).mpr ⟨rfl, ?_⟩
  by_cases hne : o.name = p.name
  · exact congrArg (fun name => (ObjectNames.ofName name config).stem) hne
  · exact (ObjectNames.stem_eq_stem_iff hraw hne).mpr ⟨hprovider, hmeets⟩

/-- Modules at different places of a run have the same path only if they collide. -/
theorem pairwise_collide_of_path_eq (h : d.DistinctNames)
    (hraw : config.rawOperations = rawOperations d.mappings) (hrun : d.schemas config = .ok ts) :
    ts.Pairwise fun t u => t.path = u.path → d.Collide config t u := by
  have hstem : (d.resolved config).Pairwise fun t u =>
      t.category = u.category → t.stem = u.stem → d.Collide config t u := by
    refine pairwise_resolved_iff.mpr ⟨⟨?enums, ?objects, ?operations⟩, ?_, ?_, ?_⟩
    case enums => exact h.enumTypes_pairwise.imp fun hne _ hname => absurd hname hne
    case objects =>
      refine h.inputObjects_pairwise.imp_of_mem fun {o p} ho hp hne _ hname => ?_
      obtain ⟨hprovider, hmeets⟩ := (ObjectNames.stem_eq_stem_iff hraw hne).mp hname
      exact ⟨hprovider, o, ho, p, hp, schema_of_mem_inputObjects hrun ho,
        schema_of_mem_inputObjects hrun hp, hmeets⟩
    case operations => exact h.operations_pairwise.imp fun hne _ hname => absurd hname hne
    all_goals exact fun _ _ _ _ hcategory => nomatch hcategory
  obtain ⟨hd, rfl⟩ := schemas_eq_ok_iff_resolved.mp hrun
  refine hstem.imp_of_mem fun {t u} ht hu hcollide hpath => ?_
  obtain ⟨hcategory, hstems⟩ := (Schema.path_eq_path_iff (slash_not_mem_stem hd hraw ht)
    (slash_not_mem_stem hd hraw hu)).mp hpath
  exact hcollide hcategory hstems

/-- **Paths of a run**: if the enumerations, the input types and the actions of a document have
distinct names, two modules of a run have the same path exactly if they are those of the input type
of a raw operation and of an input type that is called by its alias, on a document database. No
module has the path of the index. -/
theorem path_eq_iff_collide {s : Settings} {workingDir output : Text} (h : d.DistinctNames)
    (hrun : generate d s workingDir output = .ok ts) :
    (∀ (i j : Nat) (hi : i < ts.length) (hj : j < ts.length), i ≠ j →
      (ts[i].path = ts[j].path ↔ d.Collide (Config.ofRun s d workingDir output) ts[i] ts[j])) ∧
    (∀ t ∈ ts, t.path ≠ "schemas/index.ts".toList) ∧
    (s.provider ≠ .mongodb → (ts.map Schema.path).Nodup) := by
  have hd := (schemas_eq_ok_iff_resolved.mp hrun).1
  have hpairs := pairwise_collide_of_path_eq h rfl hrun
  refine ⟨?_, ?_, ?_⟩
  · intro i j hi hj hij
    refine ⟨fun hpath => ?_, path_eq_of_collide hd rfl⟩
    rw [List.pairwise_iff_getElem] at hpairs
    rcases Nat.lt_or_gt_of_ne hij with hlt | hlt
    · exact hpairs i j hi hj hlt hpath
    · exact (hpairs j i hj hi hlt hpath.symm).symm
  · intro t ht
    rw [(schemas_eq_ok_iff_resolved.mp hrun).2] at ht
    exact Schema.path_ne_index (slash_not_mem_stem hd rfl ht)
  · intro hprovider
    refine List.pairwise_map.mpr (hpairs.imp ?_)
    intro t u hcollide hpath
    exact hprovider (hcollide hpath).1

/-- A document with the input type of a raw operation of `User`, and another that has its alias for
its name. -/
def rawUser : Document where
  models := [⟨"User", []⟩]
  inputTypes := [⟨"findUserRaw", .free, []⟩, ⟨"UserFindRaw", .free, []⟩]
  modelInputTypes := []
  schemaEnums := []
  modelEnums := []
  mappings := [⟨"User", fun _ => none, some "findUserRaw", none⟩]

/-- The two input types are written to the same path. -/
theorem rawUser_paths_collide : rawUser.DistinctNames ∧
    ∃ ts, generate rawUser { Settings.initial with provider := .mongodb } "/" "out" = .ok ts ∧
      ∃ (h₀ : 0 < ts.length) (h₁ : 1 < ts.length), ts[0].path = ts[1].path := by
  have hnames : rawUser.DistinctNames := by
    constructor <;> decide
  have halias : RawAlias rawUser.mappings "findUserRaw" "UserFindRaw" :=
    .find (List.mem_singleton_self _) nofun
  have hno : ∀ stem, ¬ RawAlias rawUser.mappings "UserFindRaw" stem := by
    intro stem hstem
    generalize hname : "UserFindRaw".toList = name at hstem
    cases hstem with
    | find => exact absurd (congrArg List.head? hname) (by simp)
    | aggregate => exact absurd (congrArg List.head? hname) (by simp)
  have hrun : generate rawUser { Settings.initial with provider := .mongodb } "/" "out" =
      .ok (rawUser.resolved _) := rfl
  obtain ⟨hpaths, -, -⟩ := path_eq_iff_collide hnames hrun
  refine ⟨hnames, _, hrun, Nat.zero_lt_two, Nat.one_lt_two, ?_⟩
  refine (hpaths 0 1 Nat.zero_lt_two Nat.one_lt_two Nat.zero_ne_one).mpr ⟨rfl, ?_⟩
  exact ⟨_, List.mem_cons_self, _, List.mem_cons_of_mem _ List.mem_cons_self, rfl, rfl,
    Or.inl ⟨halias, hno⟩⟩

end QueryValidator.Document
