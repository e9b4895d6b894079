import QueryValidator.Proofs.Name.ObjectNames

/-!
# Input types of raw operations

A model may offer raw operations, written in the language of its database. The name of the input
type of a raw operation tells the operation and the model (`RawOperation.inputName_inj`). The main
statement says under which names an input type is exported in a run: on a document database the
input type of an offered operation has the names of the operation's arguments; any other input type
keeps its own, to which only the client adds an ending for the inputs of aggregates.
-/

namespace QueryValidator

/-- The operations that a model may offer in the language of its database. -/
inductive RawOperation where
  | find
  | aggregate
deriving DecidableEq, Repr

namespace RawOperation

/-- What the name of the operation's input type begins with. -/
def start : RawOperation → Text
  | .find => "find"
  | .aggregate => "aggregate"

/-- What the name of the operation's arguments has behind the model. -/
def ending : RawOperation → Text
  | .find => "FindRaw"
  | .aggregate => "AggregateRaw"

/-- The name of the operation's input type. -/
def inputName (op : RawOperation) (model : Text) : Text :=
  op.start ++ model ++ "Raw"

/-- The names of the operation's arguments. -/
def names (op : RawOperation) (model : Text) : ObjectNames :=
  ⟨model ++ op.ending, model ++ op.ending ++ "Args"⟩

/-- Some mapping of the model has the operation, and its input type is called `name`. -/
def IsInput (mappings : List Mapping) (op : RawOperation) (model name : Text) : Prop :=
  name = op.inputName model ∧ ∃ m ∈ mappings, m.model = model ∧
    match op with
    | .find => m.findRaw ≠ none
    | .aggregate => m.aggregateRaw ≠ none

variable {mappings : List Mapping} {op op' : RawOperation} {model model' name stem : Text}

theorem head?_inputName (op : RawOperation) (model : Text) :
    (op.inputName model).head? = op.start.head? := by
  cases op <;> rfl

/-- The input type of an operation has the name of no other. -/
theorem inputName_inj :
    op.inputName model = op'.inputName model' ↔ op = op' ∧ model = model' := by
  constructor
  · intro h
    have hop : op = op' := by
      have hhead := congrArg List.head? h
      rw [head?_inputName, head?_inputName] at hhead
      revert hhead
      cases op <;> cases op' <;> decide
    subst hop
    exact ⟨rfl, List.append_cancel_left (List.append_cancel_right h)⟩
  · rintro ⟨rfl, rfl⟩
    rfl

/-- The names of an operation's arguments have a capital letter more than that of its input type. -/
theorem stem_names_ne (op : RawOperation) (model : Text) :
    (op.names model).stem ≠ op.inputName model := by
  obtain ⟨c, hc⟩ : ∃ c, op.start.count c + "Raw".toList.count c < op.ending.count c := by
    cases op with
    | find => exact ⟨'F', by decide⟩
    | aggregate => exact ⟨'A', by decide⟩
  intro h
  have hcount : (model ++ op.ending).count c = (op.start ++ model ++ "Raw").count c :=
    congrArg (List.count c) h
  rw [List.count_append, List.count_append, List.count_append] at hcount
  omega

/-- The aliases are the stems of the arguments of the operations that are offered. -/
theorem rawAlias_iff : RawAlias mappings name stem ↔
    ∃ op model, IsInput mappings op model name ∧ stem = (op.names model).stem := by
  constructor
  · intro h
    cases h with
    | find hm hraw => exact ⟨.find, _, ⟨rfl, _, hm, rfl, hraw⟩, rfl⟩
    | aggregate hm hraw => exact ⟨.aggregate, _, ⟨rfl, _, hm, rfl, hraw⟩, rfl⟩
  · rintro ⟨op, _, ⟨rfl, m, hm, rfl, hraw⟩, rfl⟩
    cases op with
    | find => exact .find hm hraw
    | aggregate => exact .aggregate hm hraw

/-- Which operations are offered depends on what mappings there are, not on how often or in which
order they are listed. -/
theorem isInput_congr {mappings' : List Mapping} (h : ∀ m, m ∈ mappings' ↔ m ∈ mappings) :
    IsInput mappings' op model name ↔ IsInput mappings op model name := by
  simp only [IsInput, h]

end RawOperation

/-! ### Names in a run -/

namespace ObjectNames

variable {config config' : Config} {mappings : List Mapping} {name : Text}

theorem ofName_of_isInput {op : RawOperation} {model : Text}
    (hraw : config.rawOperations = rawOperations mappings) (hprovider : config.provider = .mongodb)
    (h : op.IsInput mappings model name) : ofName name config = op.names model := by
  have halias : RawAlias mappings name (op.names model).stem :=
    RawOperation.rawAlias_iff.mpr ⟨op, model, h, rfl⟩
  exact ofName_of_alias hprovider hraw halias

theorem ofName_of_no_input (hraw : config.rawOperations = rawOperations mappings)
    (h : config.provider = .mongodb → ∀ (op : RawOperation) (model : Text),
      ¬ op.IsInput mappings model name) : ofName name config = ⟨name, clientType name⟩ := by
  refine ofName_of_no_alias hraw fun hprovider stem halias => ?_
  obtain ⟨op, model, hinput, -⟩ := RawOperation.rawAlias_iff.mp halias
  exact h hprovider op model hinput

/-- Only the provider and the aliases of a configuration count for the names. -/
theorem ofName_congr {mappings' : List Mapping}
    (hraw : config.rawOperations = rawOperations mappings)
    (hraw' : config'.rawOperations = rawOperations mappings')
    (hprovider : config'.provider = config.provider)
    (h : ∀ m, m ∈ mappings' ↔ m ∈ mappings) : ofName name config' = ofName name config := by
  by_cases hinput : config.provider = .mongodb ∧
      ∃ (op : RawOperation) (model : Text), op.IsInput mappings model name
  · obtain ⟨hmongodb, op, model, hinput⟩ := hinput
    have hinput' := (RawOperation.isInput_congr h).mpr hinput
    rw [ofName_of_isInput hraw hmongodb hinput,
      ofName_of_isInput hraw' (hprovider.trans hmongodb) hinput']
  · have hnone : config.provider = .mongodb → ∀ (op : RawOperation) (model : Text),
        ¬ op.IsInput mappings model name :=
      fun hmongodb op model hin => hinput ⟨hmongodb, op, model, hin⟩
    have hnone' : config'.provider = .mongodb → ∀ (op : RawOperation) (model : Text),
        ¬ op.IsInput mappings' model name :=
      fun hmongodb op model hin =>
        hnone (hprovider ▸ hmongodb) op model ((RawOperation.isInput_congr h).mp hin)
    rw [ofName_of_no_input hraw hnone, ofName_of_no_input hraw' hnone']

/-- A name in the table of raw operations has the form by which they are told. -/
theorem isRawOperation_of_lookup (hraw : config.rawOperations = rawOperations mappings)
    {args : Text} (h : config.rawOperations.lookup name = some args) :
    isRawOperation name = true := by
  obtain ⟨l₁, l₂, heq, -⟩ := List.lookup_eq_some_iff.mp h
  have hmem : (name, args) ∈ rawOperations mappings := by
    rw [← hraw, heq]
    simp
  obtain ⟨stem, hstem, -⟩ := RawAlias.mem_rawOperations_iff.mp (Text.mem_of_mem_tableOf hmem)
  exact hstem.isRawOperation

/-- **Names of input types**: in a run on a document database the input type of a raw operation that
some mapping offers has the names of the operation's arguments. There is one such operation and one
such model at most. Any other input type keeps its name, and the client adds an ending to that of an
aggregate's input. So an input type is renamed exactly if it is that of an offered operation. The
form that the names of raw operations have never hides an entry of their table, and of the mappings
it counts only which there are. -/
theorem ofName_ofRun (s : Settings) (d : Document) (workingDir output name : Text) :
    let config := Config.ofRun s d workingDir output
    (∀ (op : RawOperation) (model : Text), op.IsInput d.mappings model name →
      s.provider = .mongodb → ofName name config = op.names model) ∧
    (∀ (op op' : RawOperation) (model model' : Text), op.IsInput d.mappings model name →
      op'.IsInput d.mappings model' name → op = op' ∧ model = model') ∧
    ((s.provider = .mongodb → ∀ (op : RawOperation) (model : Text),
        ¬ op.IsInput d.mappings model name) →
      ofName name config =
        ⟨name, if ∃ ending ∈ aggregateInputEndings, ending <:+ name then name ++ "Type" else name⟩) ∧
    ((ofName name config).stem ≠ name ↔
      s.provider = .mongodb ∧ ∃ (op : RawOperation) (model : Text),
        op.IsInput d.mappings model name) ∧
    (∀ args, config.rawOperations.lookup name = some args → isRawOperation name = true) ∧
    (∀ d' : Document, (∀ m, m ∈ d'.mappings ↔ m ∈ d.mappings) →
      ofName name (Config.ofRun s d' workingDir output) = ofName name config) := by
  intro config
  have hraw : config.rawOperations = rawOperations d.mappings := rfl
  have howntype : clientType name =
      if ∃ ending ∈ aggregateInputEndings, ending <:+ name then name ++ "Type" else name := by
    simp only [clientType, isAggregateInput_iff]
  refine ⟨?_, ?_, ?_, ?_, ?_, ?_⟩
  · intro op model hinput hmongodb
    exact ofName_of_isInput hraw hmongodb hinput
  · intro op op' model model' hinput hinput'
    exact RawOperation.inputName_inj.mp (hinput.1.symm.trans hinput'.1)
  · intro hnone
    rw [← howntype]
    exact ofName_of_no_input hraw hnone
  · constructor
    · intro hstem
      by_contra hinput
      rw [ofName_of_no_input hraw fun hmongodb op model hin =>
        hinput ⟨hmongodb, op, model, hin⟩] at hstem
      exact hstem rfl
    · rintro ⟨hmongodb, op, model, hinput⟩
      rw [ofName_of_isInput hraw hmongodb hinput, hinput.1]
      exact op.stem_names_ne model
  · intro args hargs
    exact isRawOperation_of_lookup hraw hargs
  · intro d' hmappings
    exact ofName_congr hraw rfl rfl hmappings

/-- The raw operations of `User`, mapped as often as `times` says. -/
def usersRaw (times : Nat) : Document where
  models := [⟨"User", []⟩]
  inputTypes := []
  modelInputTypes := []
  schemaEnums := []
  modelEnums := []
  mappings := List.replicate times
    ⟨"User", fun _ => none, some "findUserRaw", some "aggregateUserRaw"⟩

/-- The input type of a raw operation is renamed, also if its mapping is repeated, and that of an
aggregate is not. -/
theorem usersRaw_names :
    let settings : Settings := { Settings.initial with provider := .mongodb }
    RawOperation.aggregate.IsInput (usersRaw 1).mappings "User" "aggregateUserRaw" ∧
    ofName "aggregateUserRaw" (Config.ofRun settings (usersRaw 3) "/" "out") =
      ⟨"UserAggregateRaw", "UserAggregateRawArgs"⟩ ∧
    ofName "UserCountAggregateInput" (Config.ofRun settings (usersRaw 1) "/" "out") =
      ⟨"UserCountAggregateInput", "UserCountAggregateInputType"⟩ := by
  intro settings
  have hinput : RawOperation.aggregate.IsInput (usersRaw 1).mappings "User" "aggregateUserRaw" :=
    ⟨rfl, _, List.mem_cons_self, rfl, nofun⟩
  obtain ⟨hraw, -, -, -, -, hrepeated⟩ :=
    ofName_ofRun settings (usersRaw 1) "/" "out" "aggregateUserRaw"
  obtain ⟨-, -, hown, -, -, -⟩ :=
    ofName_ofRun settings (usersRaw 1) "/" "out" "UserCountAggregateInput"
  refine ⟨hinput, ?_, ?_⟩
  · rw [hrepeated (usersRaw 3) (by simp [usersRaw])]
    exact hraw .aggregate "User" hinput rfl
  · -- neither operation has an input type whose name begins with a capital letter
    refine hown fun _ op model hin => ?_
    have hhead := congrArg List.head? hin.1
    rw [op.head?_inputName] at hhead
    cases op <;> exact absurd hhead (by decide)

end ObjectNames

end QueryValidator
