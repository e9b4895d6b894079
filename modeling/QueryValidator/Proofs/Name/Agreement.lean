import QueryValidator.Proofs.Name.ObjectNames
import QueryValidator.Proofs.Name.Reference

/-!
# References and the names of modules

A field refers to an input type by names that are computed from the candidate alone, and the module
of the input type is exported under the names that `ObjectNames` gives. The two do not always agree:
the reference knows neither of the longer names that the client gives to the inputs of aggregates
nor of the names of raw operations. `agrees_iff` says exactly when they agree.
-/

namespace QueryValidator

/-! ### Names that are kept -/

theorem length_le_clientType (name : Text) : name.length ≤ (clientType name).length := by
  unfold clientType
  split
  · rw [List.length_append]
    omega
  · exact Nat.le_refl _

theorem clientType_eq_self_iff {name : Text} :
    clientType name = name ↔ isAggregateInput name = false := by
  unfold clientType
  cases isAggregateInput name with
  | false => simp
  | true => simp

namespace ObjectNames

/-- The stem of a renamed type is its own name only if the name was taken off its arguments or is
that of the arguments. -/
theorem stem_eq_iff {name args : Text} :
    (Text.dropEnding? "Args" args).getD args = name ↔
      args = name ++ "Args" ∨ args = name ∧ ¬ "Args".toList <:+ name := by
  cases hd : Text.dropEnding? "Args" args with
  | some before =>
    have hargs := Text.dropEnding?_eq_some_iff.mp hd
    rw [Option.getD_some, ← hargs, List.append_left_inj]
    constructor
    · exact Or.inl
    · rintro (h | ⟨rfl, hnot⟩)
      · exact h
      · exact absurd (List.suffix_append before _) hnot
  | none =>
    have hnot := Text.dropEnding?_eq_none_iff.mp hd
    rw [Option.getD_none]
    constructor
    · rintro rfl
      exact Or.inr ⟨rfl, hnot⟩
    · rintro (rfl | ⟨h, -⟩)
      · exact absurd (List.suffix_append name _) hnot
      · exact h

/-- The names of an input type are its own: it is no input of an aggregate, and no raw operation
gives it another name. -/
theorem ofName_eq_self_iff {name : Text} {c : Config} :
    ofName name c = ⟨name, name⟩ ↔
      isAggregateInput name = false ∧
        ∀ args, rawArguments? name c = some args → args = name ∧ ¬ "Args".toList <:+ name := by
  cases hargs : rawArguments? name c with
  | none =>
    rw [ofName_of_none hargs, ObjectNames.mk.injEq, clientType_eq_self_iff]
    simp
  | some args =>
    rw [ofName_of_some hargs, ObjectNames.mk.injEq, stem_eq_iff]
    constructor
    · rintro ⟨hstem, htype⟩
      have hle := length_le_clientType args
      rw [htype] at hle
      rcases hstem with rfl | ⟨rfl, hnot⟩
      · rw [List.length_append] at hle
        have hpos : 0 < "Args".toList.length := by decide
        omega
      · refine ⟨clientType_eq_self_iff.mp htype, ?_⟩
        rintro args' ⟨⟩
        exact ⟨rfl, hnot⟩
    · rintro ⟨haggregate, hkept⟩
      obtain ⟨rfl, hnot⟩ := hkept args rfl
      exact ⟨Or.inr ⟨rfl, hnot⟩, clientType_eq_self_iff.mpr haggregate⟩

/-- A raw operation gives its input type a stem that is not the type's name. -/
theorem RawNames.stem_ne {model name args : Text} (h : RawNames model name args) :
    (Text.dropEnding? "Args" args).getD args ≠ name := by
  cases h with
  | find =>
    rw [Text.dropEnding?_append, Option.getD_some]
    intro h
    -- the stem has one more capital `F` than the name
    have hcount := congrArg (List.count 'F') h
    simp [List.count_append] at hcount
  | aggregate =>
    rw [Text.dropEnding?_append, Option.getD_some]
    intro h
    have hcount := congrArg (List.count 'A') h
    simp [List.count_append] at hcount

theorem RawNames.length_lt {model name args : Text} (h : RawNames model name args) :
    name.length < args.length := by
  cases h with
  | find => simp
  | aggregate => simp

end ObjectNames

/-! ### Agreement -/

/-- The reference names the identifier, the stem and the client's type of an exported module. -/
structure Reference.Agrees (r : Reference) (n : ObjectNames) : Prop where
  ident : r.ident = n.ident
  stem : r.imported.map Import.stem = some n.stem
  typeName : r.typeName = n.typeName

namespace Reference

variable {name owner : Text}

theorem toObject_ident_eq_iff {n : ObjectNames} :
    (toObject name owner).ident = n.ident ↔ n.stem = name :=
  objectIdent_inj.trans eq_comm

theorem toObject_stem_eq_iff {n : ObjectNames} (h : name ≠ owner) :
    (toObject name owner).imported.map Import.stem = some n.stem ↔ n.stem = name := by
  rw [toObject, if_neg h, Option.map_some, Option.some.injEq]
  exact eq_comm

theorem toObject_agrees_iff {n : ObjectNames} (h : name ≠ owner) :
    (toObject name owner).Agrees n ↔ n = ⟨name, name⟩ := by
  constructor
  · rintro ⟨hident, -, htype⟩
    have hstem := toObject_ident_eq_iff.mp hident
    cases n
    cases hstem
    cases htype
    rfl
  · rintro rfl
    exact ⟨rfl, (toObject_stem_eq_iff h).mpr rfl, rfl⟩

/-- **References and exported names**: the reference of a field to an input type agrees with the
names under which the type is exported exactly if the type is no input of an aggregate and is not
given another name by a raw operation. In a run, identifier and stem agree exactly if no raw
operation renames the type, and the client's type if besides it is no input of an aggregate. -/
theorem agrees_iff {raw owner : Text} {config : Config}
    (hmark : Text.occursIn ModelQuery.findManyMark raw = false)
    (howner : whereInputOf raw ≠ owner) :
    ((ofName raw false owner).Agrees (.ofName (whereInputOf raw) config) ↔
      isAggregateInput (whereInputOf raw) = false ∧
        ∀ args, ObjectNames.rawArguments? (whereInputOf raw) config = some args →
          args = whereInputOf raw ∧ ¬ "Args".toList <:+ whereInputOf raw) ∧
    ∀ mappings, config.rawOperations = rawOperations mappings →
      ((ofName raw false owner).ident = (ObjectNames.ofName (whereInputOf raw) config).ident ↔
        ObjectNames.rawArguments? (whereInputOf raw) config = none) ∧
      ((ofName raw false owner).imported.map Import.stem =
          some (ObjectNames.ofName (whereInputOf raw) config).stem ↔
        ObjectNames.rawArguments? (whereInputOf raw) config = none) ∧
      ((ofName raw false owner).typeName =
          (ObjectNames.ofName (whereInputOf raw) config).typeName ↔
        ObjectNames.rawArguments? (whereInputOf raw) config = none ∧
          isAggregateInput (whereInputOf raw) = false) := by
  rw [ofName_object hmark, toObject_agrees_iff howner, toObject_ident_eq_iff,
    toObject_stem_eq_iff howner]
  refine ⟨ObjectNames.ofName_eq_self_iff, ?_⟩
  intro mappings hraw
  cases hargs : ObjectNames.rawArguments? (whereInputOf raw) config with
  | none =>
    rw [ObjectNames.ofName_of_none hargs]
    refine ⟨by simp, by simp, ?_⟩
    show whereInputOf raw = clientType (whereInputOf raw) ↔ _
    rw [eq_comm, clientType_eq_self_iff]
    simp
  | some args =>
    obtain ⟨m, -, hnames⟩ := ObjectNames.exists_rawNames hraw hargs
    have hstem := hnames.stem_ne
    rw [ObjectNames.ofName_of_some hargs]
    refine ⟨by simpa using hstem, by simpa using hstem, ?_⟩
    have htype : whereInputOf raw ≠ clientType args := by
      intro h
      have hlt := hnames.length_lt
      have hle := length_le_clientType args
      rw [← h] at hle
      omega
    simpa [toObject] using htype

/-- The reference to a user's where input by the name of a relation filter agrees. -/
theorem user_filter_agrees :
    Text.occursIn ModelQuery.findManyMark "UserRelationFilter" = false ∧
    whereInputOf "UserRelationFilter" ≠ "PostWhereInput".toList ∧
    Config.initial.rawOperations = rawOperations [] ∧
    (ofName "UserRelationFilter" false "PostWhereInput").Agrees
      (.ofName (whereInputOf "UserRelationFilter") .initial) ∧
    (ofName "UserRelationFilter" false "PostWhereInput").typeName =
      (ObjectNames.ofName (whereInputOf "UserRelationFilter") .initial).typeName := by
  have hmark : Text.occursIn ModelQuery.findManyMark "UserRelationFilter" = false := by decide
  have howner : whereInputOf "UserRelationFilter" ≠ "PostWhereInput".toList := by decide
  have hraw : Config.initial.rawOperations = rawOperations [] := rfl
  obtain ⟨hagrees, hrun⟩ := agrees_iff hmark howner
  obtain ⟨-, -, htype⟩ := hrun [] hraw
  refine ⟨hmark, howner, hraw, hagrees.mpr ⟨by decide, nofun⟩, htype.mpr ⟨rfl, by decide⟩⟩

/-- Not every reference agrees: the client's type of an aggregate's input is not the one that the
reference casts to. -/
theorem aggregate_reference_disagrees :
    ¬ ∀ (config : Config) (owner raw : Text), Text.isIdentifier raw = true →
      config.isEnum raw = false → Text.occursIn ModelQuery.findManyMark raw = false →
      whereInputOf raw ≠ owner →
      (ofName raw false owner).Agrees (.ofName (whereInputOf raw) config) := by
  intro h
  have hagrees := h .initial "AuditInput" "UserCountAggregateInput" (by decide) (by decide)
    (by decide) (by decide)
  exact absurd hagrees.typeName (by decide)

end Reference

end QueryValidator
