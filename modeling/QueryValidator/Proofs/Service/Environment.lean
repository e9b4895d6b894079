import QueryValidator.Proofs.Host.Making
import QueryValidator.Service.Validators

/-!
# The environment of a request

A request speaks of variables of the environment by name. Its settings and its output directory
depend on these variables alone, so that the generator, which looks up no others, finds what the
whole environment gives (`generate_eq`).
-/

namespace QueryValidator

/-- The variables of the environment of a machine. -/
def Machine.env (w : Machine) (name : Text) : Option Text :=
  w.environment.lookup name

/-! ### What options read -/

variable {env env' : Text → Option Text}

theorem EnvValue.resolve_congr {v : EnvValue}
    (h : ∀ name ∈ v.fromVariable.toList, env name = env' name) : v.resolve env = v.resolve env' := by
  unfold resolve
  cases v.value with
  | some t => rfl
  | none =>
    cases hname : v.fromVariable with
    | none => rfl
    | some name =>
      rw [hname] at h
      exact h name List.mem_cons_self

namespace GeneratorBlock

/-- The variables that a block speaks of. -/
def variableNames (b : GeneratorBlock) : List Text :=
  b.provider.fromVariable.toList ++ (b.output.bind EnvValue.fromVariable).toList

variable {b : GeneratorBlock}

theorem provider_congr (h : ∀ name ∈ b.variableNames, env name = env' name) :
    b.provider.resolve env = b.provider.resolve env' :=
  EnvValue.resolve_congr fun name hname => h name (List.mem_append_left _ hname)

theorem outputPath_congr (h : ∀ name ∈ b.variableNames, env name = env' name) :
    b.outputPath env = b.outputPath env' := by
  unfold outputPath
  cases hout : b.output with
  | none => rfl
  | some v =>
    refine EnvValue.resolve_congr fun name hname => h name (List.mem_append_right _ ?_)
    rw [hout]
    exact hname

end GeneratorBlock

namespace Options

variable {o : Options}

theorem variableNames_eq (o : Options) :
    o.variableNames = (o.generator :: o.others).flatMap GeneratorBlock.variableNames := rfl

theorem block_congr (h : ∀ name ∈ o.variableNames, env name = env' name) {b : GeneratorBlock}
    (hb : b ∈ o.generator :: o.others) : ∀ name ∈ b.variableNames, env name = env' name := by
  intro name hname
  refine h name ?_
  rw [variableNames_eq]
  exact List.mem_flatMap.mpr ⟨b, hb, hname⟩

theorem output_congr (h : ∀ name ∈ o.variableNames, env name = env' name) :
    o.output env = o.output env' := by
  unfold output
  rw [GeneratorBlock.outputPath_congr (block_congr h List.mem_cons_self)]

theorem client?_congr (h : ∀ name ∈ o.variableNames, env name = env' name) :
    o.client? env = o.client? env' := by
  unfold client?
  have hothers : ∀ b ∈ o.others, b.provider.resolve env = b.provider.resolve env' := fun b hb =>
    GeneratorBlock.provider_congr (block_congr h (List.mem_cons_of_mem _ hb))
  generalize o.others = others at hothers
  induction others with
  | nil => rfl
  | cons b others ih =>
    obtain ⟨hb, hothers⟩ := List.forall_mem_cons.mp hothers
    rw [List.find?_cons, List.find?_cons, hb, ih hothers]

theorem settings_congr (h : ∀ name ∈ o.variableNames, env name = env' name) :
    o.settings env = o.settings env' := by
  have hclient := client?_congr h
  unfold settings settingsIn
  rw [← hclient]
  cases hc : o.client? env with
  | none => rfl
  | some b =>
    have hb : b ∈ o.others := List.mem_of_find?_eq_some hc
    simp only [GeneratorBlock.outputPath_congr (block_congr h (List.mem_cons_of_mem _ hb))]

end Options

/-! ### Lookups -/

namespace Session

variable {w : Machine}

theorem lookUp_eq (names : List Text) (w : Machine) : (lookUp names : StateM Machine _) w =
    (names.filterMap fun name => (w.env name).map (name, ·), w) := by
  induction names with
  | nil => rfl
  | cons name names ih =>
    have hvalue : (Host.environment name : StateM Machine _) w = (w.env name, w) := rfl
    rw [lookUp, Machine.run_bind, hvalue, Machine.run_bind, ih, Machine.run_pure,
      List.filterMap_cons]
    cases w.env name <;> rfl

theorem lookup_found (names : List Text) (name : Text) :
    ((lookUp names : StateM Machine _) w).1.lookup name =
      if name ∈ names then w.env name else none := by
  rw [lookUp_eq]
  induction names with
  | nil => rfl
  | cons n names ih =>
    rw [List.filterMap_cons]
    by_cases hn : name = n
    · subst hn
      rw [if_pos List.mem_cons_self]
      cases hv : w.env name with
      | some v => exact List.lookup_cons_self
      | none => exact ih.trans (by rw [hv, ite_self])
    · have hmem : name ∈ n :: names ↔ name ∈ names := by simp [hn]
      rw [if_congr hmem rfl rfl, ← ih]
      cases hv : w.env n with
      | some v => exact (Text.lookup_cons_ite _ _ _ _).trans (if_neg hn)
      | none => rfl

/-- A request is carried out with what its options amount to on the machine. -/
theorem generate_eq (o : Options) (w : Machine) : (generate o : StateM Machine _) w =
    (Output.run o.document (o.settings w.env) (o.output w.env) : StateM Machine _) w := by
  have hfound : ∀ name ∈ o.variableNames,
      ((lookUp o.variableNames : StateM Machine _) w).1.lookup name = w.env name :=
    fun name hname => (lookup_found o.variableNames name).trans (if_pos hname)
  have hrun : (generate o : StateM Machine _) w =
      (Output.run o.document
        (o.settings fun name => ((lookUp o.variableNames : StateM Machine _) w).1.lookup name)
        (o.output fun name => ((lookUp o.variableNames : StateM Machine _) w).1.lookup name) :
          StateM Machine _) ((lookUp o.variableNames : StateM Machine _) w).2 := rfl
  rw [hrun, Options.settings_congr hfound, Options.output_congr hfound, lookUp_eq]

end Session

end QueryValidator
