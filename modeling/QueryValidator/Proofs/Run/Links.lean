import QueryValidator.Proofs.Module.Location
import QueryValidator.Proofs.Name.ObjectNames
import QueryValidator.Proofs.Name.Reference
import QueryValidator.Proofs.Run.Emission
import QueryValidator.Proofs.Text.Identifier

/-!
# Imports lead to generated modules

A document whose fields refer to declared names only is generated into modules whose imports are
complete: each import of an object module leads to a module of the same run.

An import is computed from the name of a candidate, and the names of a module from its declaration.
The two meet in `Import.IsExported`, which holds of the imports of all three categories.
-/

namespace QueryValidator

/-! ### Documents without dangling names -/

namespace Document

/-- Some field of an input type has the candidate. -/
def HasCandidate (d : Document) (c : Candidate) : Prop :=
  ∃ t ∈ d.inputTypes, ∃ a ∈ t.fields, ∃ r ∈ a.inputTypes, c = .ofTypeRef r

/-- An enumeration of either namespace has the name. -/
def DeclaresEnum (d : Document) (name : Text) : Prop :=
  ∃ e ∈ d.enumTypes, e.name = name

/-- An input type is declared that the name stands for, and it is not that of a raw operation which
is exported under another name. -/
def DeclaresInput (d : Document) (p : Provider) (name : Text) : Prop :=
  Text.occursIn ModelQuery.findManyMark name = false ∧
    (∃ t ∈ d.inputTypes, t.name = whereInputOf name) ∧
    (p = .mongodb → whereInputOf name ∉ (rawOperations d.mappings).map Prod.fst)

/-- The name is that of the arguments of a `findMany`, and the model before the mark calls this
operation by its usual action. -/
def DeclaresQuery (d : Document) (name : Text) : Prop :=
  ∃ model rest, Text.cut? ModelQuery.findManyMark name = some (model, rest) ∧
    ∃ m ∈ d.mappings, m.model = model ∧ m.action .findMany = some ("findMany" ++ model)

/-- The fields of the document refer to nothing that is not declared. -/
structure Closed (d : Document) (p : Provider) : Prop where
  enumName : ∀ e ∈ d.enumTypes, Text.occursIn ModelQuery.findManyMark e.name = false ∧
    ¬ "RelationFilter".toList <:+ e.name
  enumCandidate : ∀ c, d.HasCandidate c → ∀ name provenance,
    c.kind = .enumeration name provenance → d.DeclaresEnum name
  objectCandidate : ∀ c, d.HasCandidate c → ∀ name, c.kind = .object name .generated →
    d.DeclaresEnum name ∨ d.DeclaresInput p name ∨ d.DeclaresQuery name

end Document

/-! ### Where imports lead -/

namespace Import

/-- One of the modules is the one that the import names, and its stem can be the name of a file. -/
def IsExported (i : Import) (ts : List Schema) : Prop :=
  ∃ t ∈ ts, '/' ∉ t.stem ∧ t.category = i.category ∧ t.stem = i.stem ∧ t.exportName = i.ident

/-- The module `t` is the one that the import names, and the specifier in `m` leads to its path. -/
structure LeadsTo (i : Import) (m t : Schema) : Prop where
  category : t.category = i.category
  stem : t.stem = i.stem
  exportName : t.exportName = i.ident
  path : m.locate (i.specifier m.category) = t.path

end Import

/-! ### Names of modules -/

namespace Document

variable {d : Document} {config : Config} {ts : List Schema}

theorem enum_isExported (hrun : d.schemas config = .ok ts) {name : Text}
    (h : d.DeclaresEnum name) :
    Import.IsExported ⟨enumIdent name, .enumeration, name⟩ ts := by
  obtain ⟨e, he, rfl⟩ := h
  obtain ⟨t, ht, hschema⟩ := exists_enum_schema hrun he
  obtain ⟨hid, hcategory, hstem, hname⟩ := EnumType.schema_names hschema
  exact ⟨t, ht, hstem ▸ Text.not_mem_of_isIdentifier hid rfl, hcategory, hstem, hname⟩

theorem object_isExported (hrun : d.schemas config = .ok ts) {t : InputType}
    (ht : t ∈ d.inputTypes)
    (hraw : config.provider = .mongodb → t.name ∉ config.rawOperations.map Prod.fst) :
    Import.IsExported ⟨objectIdent t.name, .object, t.name⟩ ts := by
  obtain ⟨m, hm, hschema⟩ := exists_object_schema hrun (List.mem_map_of_mem ht)
  obtain ⟨hid, hcategory, hstem, hname, -⟩ := InputObject.schema_names hschema
  have hkept : (InputObject.ofInputType t).markRequired.name = t.name :=
    InputObject.markRequired_name _
  rw [hkept] at hid
  rw [hkept, ObjectNames.ofName_of_not_raw hraw] at hstem hname
  exact ⟨m, hm, hstem ▸ Text.not_mem_of_isIdentifier hid rfl, hcategory, hstem, hname⟩

/-- The action and the label of `findMany` give the same exported name. -/
theorem operation_isExported (hrun : d.schemas config = .ok ts) {m : Mapping} (hm : m ∈ d.mappings)
    {q : ModelQuery} (hq : q.query = "findMany".toList) (hmodel : m.model = q.model)
    (haction : m.action .findMany = some ("findMany" ++ q.model)) :
    Import.IsExported ⟨q.ident, .operation, q.stem⟩ ts := by
  obtain ⟨t, ht, hid, hcategory, hstem, hname⟩ := exists_operation_schema hrun hm haction
  refine ⟨t, ht, hstem ▸ Text.not_mem_of_isIdentifier hid rfl, hcategory, ?_, ?_⟩
  · rw [hstem, ModelQuery.stem, hq]
  · rw [hname, hmodel, ModelQuery.ident, hq]
    rfl

/-- Every import of an object module is that of a candidate of the document. -/
theorem exists_candidate_of_import (hrun : d.schemas config = .ok ts) {m : Schema} (hm : m ∈ ts)
    (hobject : m.category = .object) {i : Import} (hi : i ∈ m.imports.entries) :
    ∃ (c : Candidate) (owner : Text), d.HasCandidate c ∧ c.import? config owner = some i := by
  obtain ⟨o, ho, hschema⟩ := exists_input_of_object hrun hm hobject
  obtain ⟨-, -, -, -, himports⟩ := InputObject.schema_names hschema
  rw [himports] at hi
  have hcollected := ImportList.mem_of_mem_insertAll_empty hi
  obtain ⟨f, hf, hif⟩ := List.mem_flatMap.mp hcollected
  obtain ⟨c, hc, hic⟩ := List.mem_filterMap.mp hif
  obtain ⟨t, ht, rfl⟩ := List.mem_map.mp ho
  obtain ⟨g, hg, hcandidates⟩ := InputObject.exists_field_of_markRequired hf
  obtain ⟨a, ha, rfl⟩ := List.mem_map.mp hg
  rw [hcandidates] at hc
  obtain ⟨r, hr, rfl⟩ := List.mem_map.mp hc
  exact ⟨_, _, ⟨t, ht, a, ha, r, hr, rfl⟩, hic⟩

/-! ### References -/

section

variable {s : Settings} {workingDir output : Text}

theorem isEnum_ofRun_iff {name : Text} :
    (Config.ofRun s d workingDir output).isEnum name = true ↔ d.DeclaresEnum name := by
  simp [Config.isEnum, Config.ofRun, DeclaresEnum]

/-- A declared enumeration is referred to by its own name. -/
theorem ofName_of_declaresEnum (hclosed : d.Closed s.provider) {name owner : Text}
    (h : d.DeclaresEnum name) : Reference.ofName name true owner = Reference.toEnum name owner := by
  obtain ⟨e, he, rfl⟩ := h
  obtain ⟨hmark, hfilter⟩ := hclosed.enumName e he
  rw [Reference.ofName_enum hmark, whereInputOf_of_not_suffix hfilter]

/-- What a candidate of a closed document imports is exported by one of the modules. -/
theorem import_isExported (hclosed : d.Closed s.provider)
    (hrun : generate d s workingDir output = .ok ts) {c : Candidate} (hc : d.HasCandidate c)
    {owner : Text} {i : Import}
    (hi : c.import? (Config.ofRun s d workingDir output) owner = some i) : i.IsExported ts := by
  have henum : ∀ name, d.DeclaresEnum name →
      (Reference.ofName name true owner).imported = some i → i.IsExported ts := by
    intro name hname himp
    rw [ofName_of_declaresEnum hclosed hname] at himp
    obtain ⟨-, rfl⟩ := Reference.imported_toEnum himp
    exact enum_isExported hrun hname
  obtain ⟨kind, isList⟩ := c
  cases kind with
  | scalar k => cases hi
  | unsupported name => cases hi
  | enumeration name provenance =>
    exact henum name (hclosed.enumCandidate _ hc name provenance rfl) hi
  | object name provenance =>
    cases provenance with
    | library => cases hi
    | generated =>
      have himp : (Reference.ofName name ((Config.ofRun s d workingDir output).isEnum name)
          owner).imported = some i := hi
      by_cases hname : d.DeclaresEnum name
      · -- the registered enumeration takes precedence over an object of the same name
        rw [isEnum_ofRun_iff.mpr hname] at himp
        exact henum name hname himp
      · have hobject : (Config.ofRun s d workingDir output).isEnum name = false := by
          rw [Bool.eq_false_iff, ne_eq, isEnum_ofRun_iff]
          exact hname
        rw [hobject] at himp
        rcases (hclosed.objectCandidate _ hc name rfl).resolve_left hname with h | h
        · obtain ⟨hmark, ⟨t, ht, htname⟩, hraw⟩ := h
          rw [Reference.ofName_object hmark] at himp
          obtain ⟨-, rfl⟩ := Reference.imported_toObject himp
          rw [← htname] at hraw ⊢
          exact object_isExported hrun ht hraw
        · obtain ⟨model, rest, hcut, m, hm, hmodel, haction⟩ := h
          have hquery : ModelQuery.ofName? name = some ⟨model, "findMany"⟩ := by
            rw [ModelQuery.ofName?, hcut]
            rfl
          rw [Reference.ofName_of_query hquery] at himp
          cases himp
          exact operation_isExported hrun hm rfl hmodel haction

end

end Document

/-- **Imports lead to generated modules**: if the fields of a document refer to declared names only,
each import of an object module names a module of the same run, by category, stem and exported name,
and its specifier leads from the one module to the path of the other. -/
theorem imports_resolve {d : Document} {s : Settings} {workingDir output : Text} {ts : List Schema}
    (hclosed : d.Closed s.provider) (hrun : generate d s workingDir output = .ok ts) :
    ∀ m ∈ ts, m.category = .object → ∀ i ∈ m.imports.entries, ∃ t ∈ ts, i.LeadsTo m t := by
  intro m hm hobject i hi
  obtain ⟨c, owner, hc, himp⟩ := Document.exists_candidate_of_import hrun hm hobject hi
  obtain ⟨t, ht, hslash, hcategory, hstem, hname⟩ :=
    Document.import_isExported hclosed hrun hc himp
  obtain ⟨o, ho, hschema⟩ := Document.exists_input_of_object hrun hm hobject
  obtain ⟨hid, -, hmstem, -⟩ := InputObject.schema_names hschema
  have hmslash : '/' ∉ m.stem := by
    rw [hmstem]
    exact ObjectNames.not_mem_stem rfl (Text.not_mem_of_isIdentifier hid rfl) (by decide)
      (by decide)
  exact ⟨t, ht, hcategory, hstem, hname, Schema.locate_specifier hmslash hslash hcategory hstem⟩

/-- A blog with one enumeration and the posts of a user. -/
def Document.blog : Document where
  models := [⟨"Post", []⟩]
  inputTypes := [
    ⟨"PostWhereInput", .free, [
      ⟨"status", false, false, [⟨"Status", some .model, .enumTypes, false⟩]⟩,
      ⟨"author", false, true, [⟨"UserRelationFilter", some .prisma, .inputObjectTypes, false⟩]⟩,
      ⟨"similar", false, false, [⟨"PostFindManyArgs", some .prisma, .inputObjectTypes, false⟩]⟩]⟩,
    ⟨"UserWhereInput", .free, []⟩]
  modelInputTypes := []
  schemaEnums := []
  modelEnums := [⟨"Status", ["DRAFT", "PUBLIC"]⟩]
  mappings := [⟨"Post", fun op => if op = .findMany then some "findManyPost" else none, none, none⟩]

theorem Document.blog_closed : Document.blog.Closed .postgresql := by
  have hcandidates : ∀ c, blog.HasCandidate c → c = ⟨.enumeration "Status" .library, false⟩ ∨
      c = ⟨.object "UserRelationFilter" .generated, false⟩ ∨
      c = ⟨.object "PostFindManyArgs" .generated, false⟩ := by
    rintro c ⟨t, ht, a, ha, r, hr, rfl⟩
    rcases List.mem_pair.mp ht with rfl | rfl
    · simp only [List.mem_cons, List.not_mem_nil, or_false] at ha
      rcases ha with rfl | rfl | rfl <;> cases List.mem_singleton.mp hr
      · exact Or.inl rfl
      · exact Or.inr (Or.inl rfl)
      · exact Or.inr (Or.inr rfl)
    · cases ha
  constructor
  · intro e he
    cases List.mem_singleton.mp he
    decide
  · intro c hc name provenance hkind
    rcases hcandidates c hc with rfl | rfl | rfl <;> cases hkind
    exact ⟨_, List.mem_singleton_self _, rfl⟩
  · intro c hc name hkind
    rcases hcandidates c hc with rfl | rfl | rfl <;> cases hkind
    · exact Or.inr (Or.inl ⟨by decide, ⟨_, List.mem_cons_of_mem _ List.mem_cons_self, rfl⟩, nofun⟩)
    · exact Or.inr (Or.inr ⟨"Post", [], rfl, _, List.mem_singleton_self _, rfl, rfl⟩)

/-- The filter on posts has an import of each category. -/
theorem blog_imports_resolve : ∃ ts, generate .blog .initial "/" "out" = .ok ts ∧
    (ts.map fun m => m.imports.entries.map Import.category) =
      [[], [.enumeration, .object, .operation], [], [.object, .object, .object, .enumeration]] ∧
    ∀ m ∈ ts, m.category = .object → ∀ i ∈ m.imports.entries, ∃ t ∈ ts, i.LeadsTo m t := by
  have hrun : ∃ ts, generate .blog .initial "/" "out" = .ok ts ∧
      (ts.map fun m => m.imports.entries.map Import.category) =
        [[], [.enumeration, .object, .operation], [],
          [.object, .object, .object, .enumeration]] := ⟨_, rfl, rfl⟩
  obtain ⟨ts, hts, hcategories⟩ := hrun
  exact ⟨ts, hts, hcategories, imports_resolve Document.blog_closed hts⟩

end QueryValidator
