import QueryValidator.Proofs.Text.Table
import QueryValidator.Service.Options

/-!
# What settings depend on

A generator's block is read entry by entry, and a later entry undoes an earlier one.  After the
block each choice is what its last value says (`applyBlock_eq`).  As no key of a table occurs twice,
a choice is made exactly if its key is there with the value `true`, in whichever order the table is
gone through (`amountsTo_settingsIn`).  `o.AmountsTo env s` says so of all settings, without a word
on the order of entries, and it holds of one `s` only (`settings_of_sources`).
-/

namespace QueryValidator

/-! ### The block of a generator -/

namespace Settings

/-- A choice after a block: what the last value of its key says, or the old choice. -/
def choiceAfter (block : List (Text × Text)) (key : Text) (old : Bool) : Bool :=
  match block.reverse.lookup key with
  | some value => value == ("true" : Text)
  | none => old

theorem choiceAfter_append_singleton (block : List (Text × Text)) (k value key : Text)
    (old : Bool) : choiceAfter (block ++ [(k, value)]) key old =
      if key = k then value == ("true" : Text) else choiceAfter block key old := by
  unfold choiceAfter
  rw [List.reverse_append, List.reverse_singleton, List.singleton_append, Text.lookup_cons_ite]
  split_ifs <;> rfl

/-- Where a key has one value only, the choice is made exactly if this is `true`. -/
theorem choiceAfter_eq_true_iff {block : List (Text × Text)} {key : Text}
    (hone : ∀ v w, (key, v) ∈ block → (key, w) ∈ block → v = w) :
    choiceAfter block key false = true ↔ (key, "true".toList) ∈ block := by
  unfold choiceAfter
  rw [← Text.lookup_tableOf]
  constructor
  · intro h
    cases hl : (Text.tableOf block).lookup key with
    | none => rw [hl] at h; cases h
    | some value =>
      rw [hl] at h
      obtain rfl : value = "true".toList := eq_of_beq h
      obtain ⟨l₁, l₂, heq, -⟩ := List.lookup_eq_some_iff.mp hl
      exact Text.mem_of_mem_tableOf (by rw [heq]; simp)
  · intro h
    rw [Text.lookup_tableOf_eq_some h fun w hw => hone w _ hw h]
    rfl

theorem applyBlock_append_singleton (s : Settings) (block : List (Text × Text))
    (e : Text × Text) : s.applyBlock (block ++ [e]) = (s.applyBlock block).applyEntry e := by
  unfold applyBlock
  rw [List.foldl_append]
  rfl

theorem applyBlock_eq (s : Settings) (block : List (Text × Text)) :
    s.applyBlock block = { s with
      select := choiceAfter block "isGenerateSelect" s.select
      includes := choiceAfter block "isGenerateInclude" s.includes } := by
  induction block using List.reverseRecOn with
  | nil => rfl
  | append_singleton block e ih =>
    obtain ⟨k, value⟩ := e
    rw [applyBlock_append_singleton, ih, choiceAfter_append_singleton,
      choiceAfter_append_singleton, applyEntry]
    by_cases hselect : k = "isGenerateSelect".toList
    · rw [if_pos hselect, if_pos hselect.symm, if_neg (by rw [hselect]; decide)]
    · rw [if_neg hselect, if_neg (Ne.symm hselect)]
      by_cases hinclude : k = "isGenerateInclude".toList
      · rw [if_pos hinclude, if_pos hinclude.symm]
      · rw [if_neg hinclude, if_neg (Ne.symm hinclude)]

end Settings

namespace GeneratorBlock

variable {entries : List (Text × Json)} {key t : Text}

theorem mem_textEntries : (key, t) ∈ textEntries entries ↔ (key, Json.string t) ∈ entries := by
  unfold textEntries
  rw [List.mem_filterMap]
  constructor
  · rintro ⟨⟨k, v⟩, hmem, heq⟩
    cases v with
    | string u => cases heq; exact hmem
    | _ => cases heq
  · exact fun hmem => ⟨_, hmem, rfl⟩

theorem eq_of_mem_textEntries (h : (entries.map Prod.fst).Nodup) {v w : Text}
    (hv : (key, v) ∈ textEntries entries) (hw : (key, w) ∈ textEntries entries) : v = w := by
  have heq := List.inj_on_of_nodup_map h (mem_textEntries.mp hv) (mem_textEntries.mp hw) rfl
  cases heq
  rfl

/-- An entry that is no text is not among the entries that are read. -/
theorem textEntries_append_cons {v : Json} (hv : ∀ t, v ≠ .string t)
    (before after : List (Text × Json)) (key : Text) :
    textEntries (before ++ (key, v) :: after) = textEntries (before ++ after) := by
  unfold textEntries
  rw [List.filterMap_append, List.filterMap_append, List.filterMap_cons]
  cases v with
  | string t => exact absurd rfl (hv t)
  | _ => rfl

end GeneratorBlock

/-! ### What options amount to -/

namespace Options

/-- The tag of the first data source; the active one comes before the declared one. -/
def firstTag : List Datasource → Option Text
  | [] => none
  | ⟨_, some active⟩ :: _ => some active
  | ⟨declared, none⟩ :: _ => declared

/-- `b` is the first block of the client's generator. -/
def IsClient (o : Options) (env : Text → Option Text) (b : GeneratorBlock) : Prop :=
  ∃ before after, o.others = before ++ b :: after ∧
    b.provider.resolve env = some clientGenerator ∧
    ∀ c ∈ before, c.provider.resolve env ≠ some clientGenerator

/-- The client has the preview feature `f`. -/
def Previews (o : Options) (env : Text → Option Text) (f : Text) : Prop :=
  ∃ b, o.IsClient env b ∧ f ∈ b.previewFeatures

/-- The client is placed at `p` by choice. -/
def Places (o : Options) (env : Text → Option Text) (p : Text) : Prop :=
  ∃ b, o.IsClient env b ∧ b.isCustomOutput = true ∧ b.outputPath env = some p

/-- What the settings are that the options amount to. -/
structure AmountsTo (o : Options) (env : Text → Option Text) (s : Settings) : Prop where
  provider : s.provider = ((firstTag o.datasources).map Provider.ofTag).getD .postgresql
  sorted : s.previewFeatures.Pairwise (· < ·)
  previews : ∀ f, f ∈ s.previewFeatures ↔ o.Previews env f
  places : ∀ p, s.clientOutput = some p ↔ o.Places env p
  select : s.select = true ↔
    ("isGenerateSelect".toList, Json.string "true") ∈ o.generator.config.entries
  includes : s.includes = true ↔
    ("isGenerateInclude".toList, Json.string "true") ∈ o.generator.config.entries

variable {o o' : Options} {env : Text → Option Text} {s t : Settings}

theorem head?_bind_effective (ds : List Datasource) :
    ds.head?.bind Datasource.effective = firstTag ds := by
  rcases ds with _ | ⟨⟨declared, _ | active⟩, ds⟩ <;> rfl

theorem client?_eq_some_iff {b : GeneratorBlock} : o.client? env = some b ↔ o.IsClient env b := by
  unfold client? IsClient
  rw [List.find?_eq_some_iff_append]
  constructor
  · rintro ⟨hb, before, after, hothers, hbefore⟩
    exact ⟨before, after, hothers, eq_of_beq hb, fun c hc => by simpa using hbefore c hc⟩
  · rintro ⟨before, after, hothers, hb, hbefore⟩
    exact ⟨beq_iff_eq.mpr hb, before, after, hothers, fun c hc => by simpa using hbefore c hc⟩

theorem previews_iff {f : Text} :
    o.Previews env f ↔ ∃ b, o.client? env = some b ∧ f ∈ b.previewFeatures := by
  simp only [Previews, client?_eq_some_iff]

theorem places_iff {p : Text} : o.Places env p ↔
    ∃ b, o.client? env = some b ∧ b.isCustomOutput = true ∧ b.outputPath env = some p := by
  simp only [Places, client?_eq_some_iff]

theorem previews_iff_of_client {b : GeneratorBlock} {f : Text} (h : o.client? env = some b) :
    o.Previews env f ↔ f ∈ b.previewFeatures := by
  rw [previews_iff, h]
  simp

theorem places_iff_of_client {b : GeneratorBlock} {p : Text} (h : o.client? env = some b) :
    o.Places env p ↔ b.isCustomOutput = true ∧ b.outputPath env = some p := by
  rw [places_iff, h]
  simp

theorem provider_eq (o : Options) :
    o.provider = ((firstTag o.datasources).map Provider.ofTag).getD .postgresql := by
  unfold provider
  rw [head?_bind_effective]
  cases firstTag o.datasources <;> rfl

/-- In whichever order the entries of the block are gone through, they amount to the same. -/
theorem amountsTo_settingsIn {order : List (Text × Json)}
    (horder : order.Perm o.generator.config.entries) :
    o.AmountsTo env (o.settingsIn env order) := by
  have hkeys : (order.map Prod.fst).Nodup :=
    (horder.map Prod.fst).nodup_iff.mpr o.generator.config.keys_nodup
  have hchoice (key : Text) :
      Settings.choiceAfter (GeneratorBlock.textEntries order) key false = true ↔
        (key, Json.string "true") ∈ o.generator.config.entries :=
    ((Settings.choiceAfter_eq_true_iff fun _ _ => GeneratorBlock.eq_of_mem_textEntries hkeys).trans
      GeneratorBlock.mem_textEntries).trans horder.mem_iff
  unfold settingsIn
  rw [Settings.applyBlock_eq]
  constructor
  · exact o.provider_eq
  · cases o.client? env with
    | some b => exact Text.pairwise_sortedSet b.previewFeatures
    | none => exact .nil
  · intro f
    rw [previews_iff]
    cases o.client? env <;> simp
  · intro p
    rw [places_iff]
    cases o.client? env <;> simp
  · exact hchoice _
  · exact hchoice _

theorem amountsTo_settings : o.AmountsTo env (o.settings env) :=
  amountsTo_settingsIn (.refl _)

/-- Options amount to no two settings. -/
theorem AmountsTo.unique (hs : o.AmountsTo env s) (ht : o.AmountsTo env t) : s = t := by
  obtain ⟨sProvider, sFeatures, sSelect, sIncludes, sOutput⟩ := s
  obtain ⟨tProvider, tFeatures, tSelect, tIncludes, tOutput⟩ := t
  obtain rfl : sProvider = tProvider := hs.provider.trans ht.provider.symm
  obtain rfl : sFeatures = tFeatures :=
    Text.eq_of_pairwise_lt hs.sorted ht.sorted fun f => (hs.previews f).trans (ht.previews f).symm
  obtain rfl : sOutput = tOutput :=
    Option.ext fun p => (hs.places p).trans (ht.places p).symm
  obtain rfl : sSelect = tSelect := Bool.eq_iff_iff.mpr (hs.select.trans ht.select.symm)
  obtain rfl : sIncludes = tIncludes := Bool.eq_iff_iff.mpr (hs.includes.trans ht.includes.symm)
  rfl

/-! ### Options that amount to the same -/

/-- The options agree in all that settings are made of. -/
structure SameSources (env : Text → Option Text) (o o' : Options) : Prop where
  tag : firstTag o.datasources = firstTag o'.datasources
  previews : ∀ f, o.Previews env f ↔ o'.Previews env f
  places : ∀ p, o.Places env p ↔ o'.Places env p
  entries : ∀ key t,
    (key, Json.string t) ∈ o.generator.config.entries ↔
      (key, Json.string t) ∈ o'.generator.config.entries

theorem SameSources.amountsTo (h : SameSources env o o') (hs : o.AmountsTo env s) :
    o'.AmountsTo env s where
  provider := by rw [← h.tag]; exact hs.provider
  sorted := hs.sorted
  previews f := (hs.previews f).trans (h.previews f)
  places p := (hs.places p).trans (h.places p)
  select := hs.select.trans (h.entries _ _)
  includes := hs.includes.trans (h.entries _ _)

theorem SameSources.settings_eq (h : SameSources env o o') : o.settings env = o'.settings env :=
  (h.amountsTo amountsTo_settings).unique amountsTo_settings

/-- **Settings of a request**: after a block the two choices are what the last values of their keys
say, and nothing else has changed. So, as no key of a table occurs twice, the options amount to
exactly one value, in whichever order the table is gone through; entries that are no texts do
nothing; and options amount to the same settings when they agree in the texts of their own block, in
what the first block of the client previews and where it is placed by choice, and in the tag of the
first data source. -/
theorem settings_of_sources :
    (∀ (s : Settings) (block : List (Text × Text)), s.applyBlock block = { s with
      select := Settings.choiceAfter block "isGenerateSelect" s.select
      includes := Settings.choiceAfter block "isGenerateInclude" s.includes }) ∧
    ∀ (env : Text → Option Text) (o : Options),
      (∀ s, o.AmountsTo env s ↔ s = o.settings env) ∧
      (∀ order : List (Text × Json), order.Perm o.generator.config.entries →
        o.settingsIn env order = o.settings env) ∧
      (∀ (before after : List (Text × Json)) (key : Text) (v : Json), (∀ t, v ≠ .string t) →
        o.settingsIn env (before ++ (key, v) :: after) = o.settingsIn env (before ++ after)) ∧
      ∀ o' : Options, SameSources env o o' → o.settings env = o'.settings env := by
  refine ⟨Settings.applyBlock_eq, fun env o => ⟨fun s => ⟨fun hs => ?_, ?_⟩,
    fun order horder => ?_, fun before after key v hv => ?_, fun o' hsame => hsame.settings_eq⟩⟩
  · exact hs.unique amountsTo_settings
  · rintro rfl
    exact amountsTo_settings
  · exact (amountsTo_settingsIn horder).unique amountsTo_settings
  · unfold settingsIn
    rw [GeneratorBlock.textEntries_append_cons hv]

/-- A request in whose environment the client is found by a variable, after another block. -/
def variableOptions : Options where
  generator := ⟨"zod", ⟨some "zod", none⟩, none, ⟨[("isGenerateInclude", .string "false"),
    ("isGenerateSelect", .string "true"), ("relations", .array [])], by decide⟩, [], false⟩
  others := [⟨"docs", ⟨some "docs", some "CLIENT"⟩, none, .empty, ["views"], true⟩,
    ⟨"client", ⟨none, some "CLIENT"⟩, some ⟨none, some "PLACE"⟩, .empty, ["views", "joins"],
      true⟩]
  document := ⟨[], [], [], [], [], []⟩
  datasources := [⟨some "mysql", some "sqlite"⟩]

/-- Another request that settings take the same from. -/
def plainOptions : Options where
  generator := ⟨"zod", ⟨some "zod", none⟩, none, ⟨[("isGenerateInclude", .string "false"),
    ("isGenerateSelect", .string "true")], by decide⟩, [], false⟩
  others := [⟨"client", ⟨some "prisma-client-js", none⟩, some ⟨some "out", none⟩, .empty,
      ["joins", "views", "joins"], true⟩,
    ⟨"client", ⟨some "prisma-client-js", none⟩, none, .empty, ["other"], false⟩]
  document := ⟨[], [], [], [], [], []⟩
  datasources := [⟨some "sqlite", none⟩, ⟨some "mysql", none⟩]

/-- The environment of both requests. -/
def clientEnvironment (name : Text) : Option Text :=
  List.lookup name [("CLIENT".toList, clientGenerator), ("PLACE".toList, "out".toList)]

theorem sameSources_plain : SameSources clientEnvironment variableOptions plainOptions where
  tag := rfl
  previews f := by
    rw [previews_iff_of_client (b := variableOptions.others[1]) rfl,
      previews_iff_of_client (b := plainOptions.others[0]) rfl]
    simp [variableOptions, plainOptions, or_comm]
  places p := (places_iff_of_client (b := variableOptions.others[1]) rfl).trans
    (places_iff_of_client (b := plainOptions.others[0]) rfl).symm
  entries key t := by
    simp only [variableOptions, plainOptions, List.mem_cons, List.not_mem_nil, Prod.mk.injEq,
      reduceCtorEq, and_false, or_false]

/-- The entries of `variableOptions` in another order. -/
def turnedEntries : List (Text × Json) :=
  [("isGenerateSelect", .string "true"), ("relations", .array []),
    ("isGenerateInclude", .string "false")]

/-- The order of the entries, an entry that is no text, a second client and a second data source
make no difference, and neither does what is taken from a variable. -/
theorem sources_agree :
    variableOptions.AmountsTo clientEnvironment
      ⟨.sqlite, ["joins", "views"], true, false, some "out"⟩ ∧
    (turnedEntries.Perm variableOptions.generator.config.entries ∧
      variableOptions.settingsIn clientEnvironment turnedEntries =
        variableOptions.settings clientEnvironment) ∧
    ((∀ t, Json.null ≠ .string t) ∧ variableOptions.settingsIn clientEnvironment
        [("isGenerateSelect", .string "true"), ("isGenerateSelect", .null)] =
      variableOptions.settingsIn clientEnvironment [("isGenerateSelect", .string "true")]) ∧
    SameSources clientEnvironment variableOptions plainOptions ∧
      variableOptions.settings clientEnvironment = plainOptions.settings clientEnvironment := by
  obtain ⟨hexact, horder, hother, hsame⟩ := settings_of_sources.2 clientEnvironment variableOptions
  have hperm : turnedEntries.Perm variableOptions.generator.config.entries := by
    show (turnedEntries.take 2 ++ turnedEntries.drop 2).Perm _
    exact List.perm_append_comm
  have hnull : ∀ t, Json.null ≠ .string t := fun t h => by cases h
  exact ⟨(hexact _).mpr rfl, ⟨hperm, horder _ hperm⟩,
    ⟨hnull, hother [("isGenerateSelect", .string "true")] [] _ _ hnull⟩,
    sameSources_plain, hsame plainOptions sameSources_plain⟩

end Options

end QueryValidator
