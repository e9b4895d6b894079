import QueryValidator.Name.Reference
import QueryValidator.Proofs.Name.RawAlias

/-!
# Names of object modules

An input type is exported under its own name, except that the input type of a raw operation on a
document database has the name of the operation's arguments. Either way the stem of the module has
no characters that the name of the input type does not have, those of `FindRaw` and `AggregateRaw`
apart. Two input types have the same stem only if the alias of the one is the name of the other
(`stem_eq_stem_iff`).
-/

namespace QueryValidator

/-! ### Names -/

/-- The inputs of aggregates are told by their endings. -/
theorem isAggregateInput_iff {name : Text} :
    isAggregateInput name = true ↔ ∃ ending ∈ aggregateInputEndings, ending <:+ name := by
  rw [isAggregateInput, List.any_eq_true]
  refine exists_congr fun ending => and_congr_right fun _ => ?_
  rw [Text.dropEnding?, List.isSome_isSuffixOf?_eq_isSuffixOf, List.isSuffixOf_iff_suffix]

namespace ObjectNames

theorem ofName_of_none {name : Text} {c : Config} (h : rawArguments? name c = none) :
    ofName name c = ⟨name, clientType name⟩ := by
  rw [ofName, h]

theorem ofName_of_some {name args : Text} {c : Config} (h : rawArguments? name c = some args) :
    ofName name c = ⟨(Text.dropEnding? "Args" args).getD args, clientType args⟩ := by
  rw [ofName, h]

/-- A name that stands for no raw operation of a document database is kept. -/
theorem ofName_of_not_raw {name : Text} {c : Config}
    (h : c.provider = .mongodb → name ∉ c.rawOperations.map Prod.fst) :
    ofName name c = ⟨name, clientType name⟩ := by
  have hnone : rawArguments? name c = none := by
    unfold rawArguments?
    split
    · next hraw =>
      rw [List.lookup_eq_none_iff]
      intro p hp
      rw [bne_iff_ne]
      rintro rfl
      exact h hraw.1 (List.mem_map_of_mem hp)
    · rfl
  exact ofName_of_none hnone

/-- The entry of a raw operation that gives an input type another name. -/
theorem mem_of_rawArguments? {name args : Text} {c : Config}
    (h : rawArguments? name c = some args) : (name, args) ∈ c.rawOperations := by
  unfold rawArguments? at h
  split at h
  · obtain ⟨l₁, l₂, heq, -⟩ := List.lookup_eq_some_iff.mp h
    rw [heq]
    simp
  · cases h

/-- The names of a raw operation's input type and of its arguments. -/
inductive RawNames (model : Text) : (name args : Text) → Prop
  | find : RawNames model ("find" ++ model ++ "Raw") (model ++ "FindRaw" ++ "Args")
  | aggregate : RawNames model ("aggregate" ++ model ++ "Raw") (model ++ "AggregateRaw" ++ "Args")

/-- In a run, an input type is renamed only if it belongs to a raw operation of some mapping. -/
theorem exists_rawNames {name args : Text} {c : Config} {mappings : List Mapping}
    (hraw : c.rawOperations = rawOperations mappings) (h : rawArguments? name c = some args) :
    ∃ m ∈ mappings, RawNames m.model name args := by
  have hmem := mem_of_rawArguments? h
  rw [hraw] at hmem
  obtain ⟨stem, hstem, rfl⟩ := RawAlias.mem_rawOperations_iff.mp (Text.mem_of_mem_tableOf hmem)
  cases hstem with
  | @find m hm _ => exact ⟨m, hm, .find⟩
  | @aggregate m hm _ => exact ⟨m, hm, .aggregate⟩

/-- A character in the stem that is in no name of an argument type's ending is in the name. -/
theorem not_mem_stem {name : Text} {c : Config} {mappings : List Mapping} {x : Char}
    (hraw : c.rawOperations = rawOperations mappings) (hx : x ∉ name)
    (hfind : x ∉ "FindRaw".toList) (haggregate : x ∉ "AggregateRaw".toList) :
    x ∉ (ofName name c).stem := by
  cases hargs : rawArguments? name c with
  | none =>
    rw [ofName_of_none hargs]
    exact hx
  | some args =>
    rw [ofName_of_some hargs]
    obtain ⟨m, -, hnames⟩ := exists_rawNames hraw hargs
    cases hnames with
    | find =>
      rw [List.mem_append, List.mem_append, not_or, not_or] at hx
      simp only [Text.dropEnding?_append, Option.getD_some, List.mem_append, not_or]
      exact ⟨hx.1.2, hfind⟩
    | aggregate =>
      rw [List.mem_append, List.mem_append, not_or, not_or] at hx
      simp only [Text.dropEnding?_append, Option.getD_some, List.mem_append, not_or]
      exact ⟨hx.1.2, haggregate⟩

/-! ### Stems -/

variable {mappings : List Mapping} {config : Config} {name other stem : Text}

/-- No name of an operation's arguments is that of an aggregate's input. -/
theorem clientType_arguments (stem : Text) : clientType (stem ++ "Args") = stem ++ "Args" := by
  have hends : ∀ ending ∈ aggregateInputEndings, ∀ t : Text, t ++ ending ≠ stem ++ "Args" := by
    have hapart : ∀ ending ∈ aggregateInputEndings,
        ¬ ending <:+ "Args".toList ∧ ¬ "Args".toList <:+ ending := by decide
    exact fun ending hending t =>
      Text.append_ne_append (hapart ending hending).1 (hapart ending hending).2 t stem
  rw [clientType, if_neg]
  rw [isAggregateInput_iff]
  rintro ⟨ending, hending, t, ht⟩
  exact hends ending hending t ht

/-- On a document database an input type with an alias has the names of the operation's arguments.
-/
theorem ofName_of_alias (hprovider : config.provider = .mongodb)
    (hraw : config.rawOperations = rawOperations mappings) (h : RawAlias mappings name stem) :
    ofName name config = ⟨stem, stem ++ "Args"⟩ := by
  have hargs : rawArguments? name config = some (stem ++ "Args") := by
    rw [rawArguments?, if_pos ⟨hprovider, h.isRawOperation⟩, hraw]
    refine Text.lookup_tableOf_eq_some (RawAlias.mem_rawOperations_iff.mpr ⟨stem, h, rfl⟩) ?_
    intro args hargs
    obtain ⟨stem', h', rfl⟩ := RawAlias.mem_rawOperations_iff.mp hargs
    rw [h.stem_unique h']
  rw [ofName_of_some hargs, Text.dropEnding?_append, clientType_arguments]
  rfl

/-- Any other input type keeps its name. -/
theorem ofName_of_no_alias (hraw : config.rawOperations = rawOperations mappings)
    (h : config.provider = .mongodb → ∀ stem, ¬ RawAlias mappings name stem) :
    ofName name config = ⟨name, clientType name⟩ := by
  refine ofName_of_not_raw fun hprovider hmem => ?_
  obtain ⟨⟨n, args⟩, hentry, rfl⟩ := List.mem_map.mp hmem
  rw [hraw] at hentry
  obtain ⟨stem, hstem, -⟩ := RawAlias.mem_rawOperations_iff.mp (Text.mem_of_mem_tableOf hentry)
  exact h hprovider stem hstem

theorem stem_of_alias (hprovider : config.provider = .mongodb)
    (hraw : config.rawOperations = rawOperations mappings) (h : RawAlias mappings name stem) :
    (ofName name config).stem = stem := by
  rw [ofName_of_alias hprovider hraw h]

theorem stem_of_no_alias (hraw : config.rawOperations = rawOperations mappings)
    (h : config.provider = .mongodb → ∀ stem, ¬ RawAlias mappings name stem) :
    (ofName name config).stem = name := by
  rw [ofName_of_no_alias hraw h]

/-- **Stems of input types**: two input types have the same stem exactly if the alias of one of them
is the name of the other, on a document database. -/
theorem stem_eq_stem_iff (hraw : config.rawOperations = rawOperations mappings)
    (hne : name ≠ other) :
    (ofName name config).stem = (ofName other config).stem ↔
      config.provider = .mongodb ∧
        (RawAlias.Meets mappings name other ∨ RawAlias.Meets mappings other name) := by
  by_cases hprovider : config.provider = .mongodb
  · have hkept : ∀ {n}, (∀ stem, ¬ RawAlias mappings n stem) → (ofName n config).stem = n :=
      fun h => stem_of_no_alias hraw fun _ => h
    have hmeets : ∀ {n m}, RawAlias.Meets mappings n m →
        (ofName n config).stem = (ofName m config).stem := by
      rintro n m ⟨halias, hno⟩
      rw [stem_of_alias hprovider hraw halias, hkept hno]
    constructor
    · intro heq
      refine ⟨hprovider, ?_⟩
      by_cases hn : ∃ stem, RawAlias mappings name stem
      · obtain ⟨stem, hstem⟩ := hn
        rw [stem_of_alias hprovider hraw hstem] at heq
        by_cases ho : ∃ stem, RawAlias mappings other stem
        · -- two aliases are never the same
          obtain ⟨stem', hstem'⟩ := ho
          rw [stem_of_alias hprovider hraw hstem'] at heq
          exact absurd (hstem.name_unique (heq ▸ hstem')) hne
        · rw [not_exists] at ho
          rw [hkept ho] at heq
          exact Or.inl ⟨heq ▸ hstem, ho⟩
      · rw [not_exists] at hn
        rw [hkept hn] at heq
        by_cases ho : ∃ stem, RawAlias mappings other stem
        · obtain ⟨stem, hstem⟩ := ho
          rw [stem_of_alias hprovider hraw hstem] at heq
          exact Or.inr ⟨heq ▸ hstem, hn⟩
        · rw [not_exists] at ho
          rw [hkept ho] at heq
          exact absurd heq hne
    · rintro ⟨-, h | h⟩
      · exact hmeets h
      · exact (hmeets h).symm
  · have hkept : ∀ n, (ofName n config).stem = n :=
      fun n => stem_of_no_alias hraw fun h => absurd h hprovider
    rw [hkept, hkept]
    exact iff_of_false hne fun h => hprovider h.1

end ObjectNames

end QueryValidator
