import QueryValidator.Proofs.Host.Specifier
import QueryValidator.Proofs.Run.Writing
import QueryValidator.Proofs.Text.Identifier
import QueryValidator.Proofs.Text.Literal
import Mathlib.Data.List.Forall2
import Mathlib.Data.List.TakeDrop

/-!
# The index

The index has a line for each module. From the directory of the index the specifier of the line
leads to the module, so that the lines tell the paths of all modules, in order; the files that are
written are at these paths, and the index is the last of them (`indexSource_reexports`).
-/

namespace QueryValidator

/-! ### Specifiers -/

/-- From the directory of the index the specifier leads to the module; the extension is left out. -/
structure Reexports (specifier : Text) (s : Schema) : Prop where
  relative : Path.IsRelative specifier
  plain : ∀ c ∈ specifier, Literal.IsPlain c
  target : Text.joinWith "/" (Path.follow ["schemas"] specifier) ++ ".ts" = s.path

/-- The line that exports again what the specifier leads to. -/
def exportLine (specifier : Text) : Text :=
  "export * from '" ++ specifier ++ "';"

theorem exportLine_injective : Function.Injective exportLine := by
  intro p q h
  exact List.append_cancel_left (List.append_cancel_right h)

theorem newline_not_mem_exportLine {specifier : Text}
    (h : ∀ c ∈ specifier, Literal.IsPlain c) : '\n' ∉ exportLine specifier := by
  unfold exportLine
  rw [List.mem_append, List.mem_append]
  rintro ((hfront | hmem) | hback)
  · exact absurd hfront (by decide)
  · exact (h _ hmem).2.2.1 rfl
  · exact absurd hback (by decide)

/-- The extension begins at the last dot. -/
theorem Path.stem_append {t extension : Text} (ht : t ≠ []) (hdot : '.' ∉ extension) :
    Path.stem (t ++ '.' :: extension) = t := by
  have hreverse : (t ++ '.' :: extension).reverse = extension.reverse ++ '.' :: t.reverse := by
    simp
  have hbefore : ∀ c ∈ extension.reverse, (c != '.') = true := by
    intro c hc
    rw [bne_iff_ne]
    rintro rfl
    exact hdot (List.mem_reverse.mp hc)
  have hspan : (t ++ '.' :: extension).reverse.span (fun c => c != '.') =
      (extension.reverse, '.' :: t.reverse) := by
    rw [hreverse, List.span_eq_takeWhile_dropWhile, List.takeWhile_append_of_pos hbefore,
      List.dropWhile_append_of_pos hbefore]
    simp
  rw [Path.stem, hspan]
  simp [ht]

theorem Category.components_folder (c : Category) :
    Path.components c.folder = (("schemas" : Text) :: c.directory?.toList).map .name := by
  cases c <;> rfl

namespace Schema

/-- The specifier of the module in the index. -/
def indexSpecifier (s : Schema) : Text :=
  "./" ++ Text.joinWith "/" s.moduleParts

variable {s : Schema}

theorem indexLine_eq (s : Schema) : s.indexLine = exportLine s.indexSpecifier ++ ['\n'] := by
  have hfront : "export * from './".toList = "export * from '".toList ++ "./".toList := by decide
  have hback : "';\n".toList = "';".toList ++ ['\n'] := by decide
  calc s.indexLine
      = "export * from '".toList ++ "./".toList ++ Text.joinWith "/" s.moduleParts ++
          ("';".toList ++ ['\n']) :=
        congrArg₂ (fun front back => front ++ Text.joinWith "/" s.moduleParts ++ back) hfront hback
    _ = exportLine s.indexSpecifier ++ ['\n'] := by
        unfold exportLine indexSpecifier
        simp only [List.append_assoc]

theorem moduleParts_eq (h : '/' ∉ s.stem) :
    s.moduleParts = s.category.directory?.toList ++ [s.stem ++ ".schema"] := by
  have hstem : Path.stem s.fileName = s.stem ++ ".schema" := by
    have hfile : s.fileName = (s.stem ++ ".schema") ++ '.' :: "ts".toList := by
      simp [fileName]
    rw [hfile]
    exact Path.stem_append (by simp) (by decide)
  have hfolder : s.category.folder ≠ [] := by cases s.category <;> decide
  rw [moduleParts, path_eq h, Path.components_file hfolder (isFileName_fileName h),
    Category.components_folder]
  simp [hstem, Function.comp_def, Path.Component.text]

theorem path_eq_moduleParts (h : '/' ∉ s.stem) :
    s.path = Text.joinWith "/" ("schemas".toList :: s.moduleParts) ++ ".ts" := by
  have hfolder : Path.normalParts s.category.folder =
      "schemas".toList :: s.category.directory?.toList := by cases s.category <;> rfl
  rw [moduleParts_eq h, ← List.cons_append, ← hfolder, Category.joinWith_folder, path_eq h]
  simp [fileName]

theorem isFileName_of_mem_moduleParts (h : '/' ∉ s.stem) {part : Text}
    (hpart : part ∈ s.moduleParts) : Path.IsFileName part := by
  rw [moduleParts_eq h, List.mem_append, List.mem_singleton, Option.mem_toList] at hpart
  rcases hpart with hpart | rfl
  · refine Path.isFileName_of_length ?_ ?_ <;> cases hc : s.category <;> rw [hc] at hpart <;>
      cases hpart <;> decide
  · refine Path.isFileName_of_length ?_ (by simp)
    rw [List.mem_append]
    exact not_or.mpr ⟨h, by decide⟩

theorem follow_indexSpecifier (h : '/' ∉ s.stem) :
    Path.follow ["schemas"] s.indexSpecifier = "schemas".toList :: s.moduleParts := by
  have hparts : ∀ part ∈ s.moduleParts, Path.IsFileName part :=
    fun part => isFileName_of_mem_moduleParts h
  have hne : s.moduleParts ≠ [] := by
    rw [moduleParts_eq h]
    simp
  have hsplit : Text.splitAt '/' s.indexSpecifier = ['.'] :: s.moduleParts := by
    show Text.splitAt '/' (['.'] ++ '/' :: Text.joinWith ['/'] s.moduleParts) = _
    rw [Text.splitAt_append_cons, Text.splitAt_joinWith hne fun part hpart => (hparts part hpart).1]
    rfl
  rw [Path.follow, hsplit, List.foldl_cons]
  exact Path.foldl_step_names hparts _

theorem isPlain_of_isIdentifierPart {c : Char} (h : Text.isIdentifierPart c = true) :
    Literal.IsPlain c := by
  refine ⟨?_, ?_, ?_, ?_⟩ <;> rintro rfl <;> exact absurd h (by decide)

theorem isPlain_of_mem_moduleParts (h : Text.isIdentifier s.stem = true) {part : Text}
    (hpart : part ∈ s.moduleParts) : ∀ c ∈ part, Literal.IsPlain c := by
  have hextension : ∀ c ∈ ".schema".toList, Literal.IsPlain c := Literal.isPlain_of_all (by decide)
  rw [moduleParts_eq (Text.not_mem_of_isIdentifier h rfl), List.mem_append, Option.mem_toList,
    List.mem_singleton] at hpart
  rcases hpart with hpart | rfl
  · refine Literal.isPlain_of_all ?_
    cases hc : s.category <;> rw [hc] at hpart <;> cases hpart <;> decide
  · rw [List.forall_mem_append]
    refine ⟨fun c hc => ?_, hextension⟩
    exact isPlain_of_isIdentifierPart (Text.all_part_of_isIdentifier h c hc)

theorem isPlain_of_mem_indexSpecifier (h : Text.isIdentifier s.stem = true) :
    ∀ c ∈ s.indexSpecifier, Literal.IsPlain c := by
  have hfront : ∀ c ∈ "./".toList, Literal.IsPlain c := Literal.isPlain_of_all (by decide)
  have hslash : ∀ c ∈ "/".toList, Literal.IsPlain c := Literal.isPlain_of_all (by decide)
  rw [indexSpecifier, List.forall_mem_append]
  refine ⟨hfront, fun c hc => ?_⟩
  rcases Text.mem_joinWith hc with hc | ⟨part, hpart, hc⟩
  · exact hslash c hc
  · exact isPlain_of_mem_moduleParts h hpart c hc

/-- The specifier of a module in the index leads to the module. -/
theorem reexports_indexSpecifier (h : Text.isIdentifier s.stem = true) :
    Reexports s.indexSpecifier s where
  relative := Or.inr (Or.inr (Or.inl (List.prefix_append _ _)))
  plain := isPlain_of_mem_indexSpecifier h
  target := by
    have hslash := Text.not_mem_of_isIdentifier (c := '/') h rfl
    rw [follow_indexSpecifier hslash, path_eq_moduleParts hslash]

end Schema

/-! ### Lines -/

theorem splitAt_indexSource {schemas : List Schema}
    (h : ∀ s ∈ schemas, Text.isIdentifier s.stem = true) :
    Text.splitAt '\n' (indexSource schemas) =
      (schemas.map Schema.indexSpecifier).map exportLine ++ [[]] := by
  have hlines : ∀ line ∈ (schemas.map Schema.indexSpecifier).map exportLine, '\n' ∉ line :=
    List.forall_mem_map.mpr <| List.forall_mem_map.mpr fun s hs =>
      newline_not_mem_exportLine (Schema.isPlain_of_mem_indexSpecifier (h s hs))
  have hsource : indexSource schemas =
      ((schemas.map Schema.indexSpecifier).map exportLine).flatMap (· ++ ['\n']) ++ [] := by
    rw [List.append_nil, List.flatMap_map, List.flatMap_map]
    exact List.flatMap_congr fun s _ => s.indexLine_eq
  rw [hsource, Text.splitAt_lines hlines]
  rfl

/-- The lines of the index are those of its modules, in order. -/
theorem exists_specifiers {schemas : List Schema}
    (h : ∀ s ∈ schemas, Text.isIdentifier s.stem = true) :
    ∃ specifiers, Text.splitAt '\n' (indexSource schemas) = specifiers.map exportLine ++ [[]] ∧
      List.Forall₂ Reexports specifiers schemas := by
  refine ⟨_, splitAt_indexSource h, ?_⟩
  rw [List.forall₂_map_left_iff, List.forall₂_same]
  exact fun s hs => Schema.reexports_indexSpecifier (h s hs)

/-- What specifiers lead to is told by them. -/
theorem map_path_of_reexports {specifiers : List Text} {schemas : List Schema}
    (h : List.Forall₂ Reexports specifiers schemas) : schemas.map Schema.path =
      specifiers.map fun p => Text.joinWith "/" (Path.follow ["schemas"] p) ++ ".ts" := by
  induction h with
  | nil => rfl
  | cons hs _ ih => rw [List.map_cons, List.map_cons, ih, hs.target]

theorem map_path_of_indexSource_eq {schemas schemas' : List Schema}
    (h : ∀ s ∈ schemas, Text.isIdentifier s.stem = true)
    (h' : ∀ s ∈ schemas', Text.isIdentifier s.stem = true)
    (heq : indexSource schemas = indexSource schemas') :
    schemas.map Schema.path = schemas'.map Schema.path := by
  obtain ⟨specifiers, hlines, hlead⟩ := exists_specifiers h
  obtain ⟨specifiers', hlines', hlead'⟩ := exists_specifiers h'
  rw [heq, hlines'] at hlines
  have hsame : specifiers' = specifiers :=
    exportLine_injective.list_map (List.append_cancel_right hlines)
  rw [map_path_of_reexports hlead, map_path_of_reexports hlead', hsame]

/-! ### The index -/

theorem Output.filesOf_eq (output : Text) (schemas : List Schema) : Output.filesOf output schemas =
    schemas.map (fun s => (Path.join output s.path, s.source)) ++
      [(Path.join output "schemas/index.ts", indexSource schemas)] := by
  rw [Output.filesOf, Output.files, List.map_append, List.map_map]
  rfl

/-- **The index**: it has one line for each module, in the order of the modules, and the specifier
of the line leads from the directory of the index to the module; so the lines tell the paths, and
what is indexed together is indexed one after the other. Modules are written exactly if each file is
written, the index last, and what is returned are the places of these files. -/
theorem indexSource_reexports :
    (∀ schemas : List Schema, (∀ s ∈ schemas, Text.isIdentifier s.stem = true) →
      ∃ specifiers, Text.splitAt '\n' (indexSource schemas) = specifiers.map exportLine ++ [[]] ∧
        List.Forall₂ Reexports specifiers schemas) ∧
    (∀ schemas schemas' : List Schema, (∀ s ∈ schemas, Text.isIdentifier s.stem = true) →
      (∀ s ∈ schemas', Text.isIdentifier s.stem = true) →
      indexSource schemas = indexSource schemas' →
        schemas.map Schema.path = schemas'.map Schema.path) ∧
    (∀ schemas schemas' : List Schema,
      indexSource (schemas ++ schemas') = indexSource schemas ++ indexSource schemas') ∧
    ∀ (output : Text) (schemas : List Schema) (paths : List Text) (w w' : Machine),
      (Output.write output schemas : StateM Machine _) w = (.ok paths, w') ↔
        Output.WritesEach (schemas.map (fun s => (Path.join output s.path, s.source)) ++
            [(Path.join output "schemas/index.ts", indexSource schemas)]) w w' ∧
          paths = schemas.map (fun s => Path.join output s.path) ++
            [Path.join output "schemas/index.ts"] := by
  refine ⟨fun schemas => exists_specifiers, fun schemas schemas' => map_path_of_indexSource_eq,
    fun schemas schemas' => List.flatMap_append, fun output schemas paths w w' => ?_⟩
  rw [Output.write_eq_ok_iff, Output.filesOf_eq, List.map_append, List.map_map]
  rfl

/-- A module of each category, all with the same body. -/
def indexed (body : Zod.Expr) : List Schema :=
  [⟨.enumeration, "Role", "RoleSchema", body, .empty, none⟩,
    ⟨.object, "UserWhereInput", "UserWhereInputObjectSchema", body, .empty, none⟩,
    ⟨.operation, "findManyUser", "UserFindManySchema", body, .empty, none⟩]

def emptyMachine : Machine := ⟨⟨[]⟩, [], []⟩

/-- The index says where the modules are, whatever their bodies; on an empty machine all of them are
written. -/
theorem indexed_reexported :
    ((∀ s ∈ indexed (.scalar .string), Text.isIdentifier s.stem = true) ∧
      ∃ specifiers, Text.splitAt '\n' (indexSource (indexed (.scalar .string))) =
          specifiers.map exportLine ++ [[]] ∧
        List.Forall₂ Reexports specifiers (indexed (.scalar .string))) ∧
    ((∀ s ∈ indexed (.ref "other"), Text.isIdentifier s.stem = true) ∧
      indexSource (indexed (.scalar .string)) = indexSource (indexed (.ref "other")) ∧
      (indexed (.scalar .string)).map Schema.path = (indexed (.ref "other")).map Schema.path) ∧
    ∃ w', (Output.write "out" (indexed (.scalar .string)) : StateM Machine _) emptyMachine =
        (.ok ["out/schemas/enums/Role.schema.ts", "out/schemas/objects/UserWhereInput.schema.ts",
          "out/schemas/findManyUser.schema.ts", "out/schemas/index.ts"], w') ∧
      Output.WritesEach ((indexed (.scalar .string)).map
          (fun s => (Path.join "out" s.path, s.source)) ++
        [(Path.join "out" "schemas/index.ts", indexSource (indexed (.scalar .string)))])
        emptyMachine w' := by
  obtain ⟨hlines, hpaths, -, hwrite⟩ := indexSource_reexports
  have hstems : ∀ body, ∀ s ∈ indexed body, Text.isIdentifier s.stem = true := by
    intro body s hs
    have hstem : s.stem ∈ ["Role".toList, "UserWhereInput".toList, "findManyUser".toList] :=
      List.mem_map_of_mem hs
    revert hstem
    generalize s.stem = stem
    revert stem
    decide
  have hreturned : ((Output.write "out" (indexed (.scalar .string)) : StateM Machine _)
      emptyMachine).1 = .ok ["out/schemas/enums/Role.schema.ts",
        "out/schemas/objects/UserWhereInput.schema.ts", "out/schemas/findManyUser.schema.ts",
        "out/schemas/index.ts"] := by
    decide +kernel
  refine ⟨⟨hstems _, hlines _ (hstems _)⟩,
    ⟨hstems _, rfl, hpaths _ _ (hstems _) (hstems _) rfl⟩, ?_⟩
  generalize hrun : (Output.write "out" (indexed (.scalar .string)) : StateM Machine _)
    emptyMachine = result at hreturned
  obtain ⟨r, w'⟩ := result
  obtain rfl : r = _ := hreturned
  exact ⟨w', rfl, ((hwrite _ _ _ _ _).mp hrun).1⟩

end QueryValidator
