import QueryValidator.Module.Schema
import QueryValidator.Proofs.Text.Join

/-!
# Where a module specifier leads

A module is in the folder of its category, so its path tells its category and its stem
(`path_eq_path_iff`). The specifier of an import, read from there, leads to the path of every module
that has the category and the stem of the import (`locate_specifier`).
-/

namespace QueryValidator

/-! ### Files in a folder -/

namespace Path

/-- The component that the parts of a path begin with, if there is one besides the names. -/
def front (parts : List Text) : List Component :=
  match parts with
  | ['.'] :: _ => [.here]
  | [] :: _ :: _ => [.root]
  | _ => []

theorem components_eq (p : Text) :
    components p = front (Text.splitAt '/' p) ++
      ((Text.splitAt '/' p).filter fun part => !isVoid part).map componentOf := rfl

theorem front_append {parts : List Text} (hnil : parts ≠ []) (hempty : parts ≠ [[]]) (name : Text) :
    front (parts ++ [name]) = front parts := by
  cases parts with
  | nil => exact absurd rfl hnil
  | cons part ps =>
    by_cases hdot : part = ['.']
    · rw [hdot]
      rfl
    · cases part with
      | nil =>
        cases ps with
        | nil => exact absurd rfl hempty
        | cons p ps => rfl
      | cons c t =>
        have hname : ∀ qs, front ((c :: t) :: qs) = [] := by
          intro qs
          unfold front
          split
          · next h => exact absurd (List.cons_eq_cons.mp h).1 hdot
          · next h => exact absurd (List.cons_eq_cons.mp h).1 (by simp)
          · rfl
        rw [List.cons_append, hname, hname]

/-- A name that a path may end with: it has no slash and is none of the parts with a meaning. -/
def IsFileName (name : Text) : Prop :=
  '/' ∉ name ∧ isVoid name = false ∧ name ≠ ['.', '.']

/-- The parts with a meaning are short. -/
theorem isFileName_of_length {name : Text} (hslash : '/' ∉ name) (hlong : 2 < name.length) :
    IsFileName name := by
  refine ⟨hslash, ?_, ?_⟩
  · rw [isVoid, Bool.or_eq_false_iff]
    constructor <;> rw [beq_eq_false_iff_ne] <;> rintro rfl <;> exact absurd hlong (by decide)
  · rintro rfl
    exact absurd hlong (by decide)

theorem components_file {folder name : Text} (hfolder : folder ≠ []) (hname : IsFileName name) :
    components (folder ++ '/' :: name) = components folder ++ [.name name] := by
  obtain ⟨hslash, hvoid, hup⟩ := hname
  have hjoin := Text.joinWith_splitAt '/' folder
  have hnil : Text.splitAt '/' folder ≠ [] := by
    intro h
    exact hfolder (by rw [← hjoin, h]; rfl)
  have hempty : Text.splitAt '/' folder ≠ [[]] := by
    intro h
    exact hfolder (by rw [← hjoin, h]; rfl)
  rw [components_eq, components_eq, Text.splitAt_append_cons, Text.splitAt_of_not_mem hslash,
    front_append hnil hempty, List.filter_append, List.map_append, List.append_assoc]
  simp [hvoid, componentOf, hup]

theorem normalParts_file {folder name : Text} (hfolder : folder ≠ []) (hname : IsFileName name) :
    normalParts (folder ++ '/' :: name) = normalParts folder ++ [name] := by
  unfold normalParts
  rw [components_file hfolder hname, List.foldl_append]
  rfl

end Path

/-! ### Modules -/

namespace Category

/-- The folder of the modules of a category. -/
def folder : Category → Text
  | .enumeration => "schemas/enums"
  | .object => "schemas/objects"
  | .operation => "schemas"

theorem folder_inj {c c' : Category} (h : c.folder = c'.folder) : c = c' := by
  revert h
  cases c <;> cases c' <;> decide

/-- Every way between categories ends with a slash. -/
theorem wayTo_eq (origin target : Category) :
    origin.wayTo target = (origin.wayTo target).dropLast ++ ['/'] := by
  cases origin <;> cases target <;> rfl

/-- The way from one folder to another leads there. -/
theorem descend_wayTo (origin target : Category) :
    (Path.components (origin.wayTo target).dropLast).foldl Path.descend
      (Path.normalParts origin.folder) = Path.normalParts target.folder := by
  cases origin <;> cases target <;> rfl

theorem joinWith_folder (c : Category) (name : Text) :
    Text.joinWith "/" (Path.normalParts c.folder ++ [name]) = c.folder ++ '/' :: name := by
  have htwo : ∀ a b : Text, Text.joinWith "/" [a, b, name] = a ++ '/' :: (b ++ '/' :: name) := by
    intro a b
    rw [Text.joinWith_cons_cons, Text.joinWith_cons_cons, Text.joinWith_singleton]
    rfl
  cases c with
  | enumeration => exact htwo "schemas" "enums"
  | object => exact htwo "schemas" "objects"
  | operation =>
    show Text.joinWith "/" ["schemas".toList, name] = _
    rw [Text.joinWith_cons_cons, Text.joinWith_singleton]
    rfl

end Category

namespace Schema

/-- The place that a module specifier names in the module `m`; it leaves out the extension. -/
def locate (m : Schema) (specifier : Text) : Text :=
  Text.joinWith "/" ((Path.components (specifier ++ ".ts")).foldl Path.descend
    (Path.normalParts m.path).dropLast)

theorem isFileName_fileName {m : Schema} (h : '/' ∉ m.stem) : Path.IsFileName m.fileName := by
  unfold fileName
  refine Path.isFileName_of_length ?_ (by simp)
  rw [List.mem_append]
  exact not_or.mpr ⟨h, by decide⟩

theorem path_eq {m : Schema} (h : '/' ∉ m.stem) :
    m.path = m.category.folder ++ '/' :: m.fileName := by
  have habs : Path.isAbsolute m.fileName = false := by
    unfold fileName Path.isAbsolute
    cases hs : m.stem with
    | nil => rfl
    | cons c t =>
      rw [hs] at h
      have hc : c ≠ '/' := fun hc => h (hc ▸ List.mem_cons_self)
      simp [hc]
  have hjoin : ∀ d : Text, d ≠ [] → d.getLast? ≠ some '/' →
      Path.join d m.fileName = d ++ '/' :: m.fileName := by
    intro d hd hlast
    simp [Path.join, habs, hd, hlast]
  unfold path
  cases m.category <;> exact hjoin _ (by decide) (by decide)

/-- Modules have the same path if they have the same category and the same stem. -/
theorem path_eq_path_iff {t u : Schema} (ht : '/' ∉ t.stem) (hu : '/' ∉ u.stem) :
    t.path = u.path ↔ t.category = u.category ∧ t.stem = u.stem := by
  constructor
  · intro h
    rw [path_eq ht, path_eq hu] at h
    -- the file is the last part of the path
    have hparts := congrArg (Text.splitAt '/') h
    rw [Text.splitAt_append_cons, Text.splitAt_append_cons,
      Text.splitAt_of_not_mem (isFileName_fileName ht).1,
      Text.splitAt_of_not_mem (isFileName_fileName hu).1] at hparts
    obtain ⟨hfolder, hfile⟩ := List.append_inj' hparts rfl
    have hjoin := congrArg (Text.joinWith ['/']) hfolder
    rw [Text.joinWith_splitAt, Text.joinWith_splitAt] at hjoin
    exact ⟨Category.folder_inj hjoin, List.append_cancel_right (List.singleton_inj.mp hfile)⟩
  · rintro ⟨hcategory, hstem⟩
    rw [path_eq ht, path_eq hu, hcategory, fileName, fileName, hstem]

/-- The index is no module. -/
theorem path_ne_index {t : Schema} (ht : '/' ∉ t.stem) : t.path ≠ "schemas/index.ts".toList := by
  intro h
  have hends : ".schema.ts".toList <:+ t.path := by
    rw [path_eq ht, fileName]
    exact ⟨t.category.folder ++ '/' :: t.stem, by simp⟩
  rw [h] at hends
  exact absurd hends (by decide)

/-- **Specifiers lead to modules**: the specifier of an import, taken from a module, names the path
of the module of the import's category and stem. -/
theorem locate_specifier {m t : Schema} {i : Import} (hm : '/' ∉ m.stem) (ht : '/' ∉ t.stem)
    (hcategory : t.category = i.category) (hstem : t.stem = i.stem) :
    m.locate (i.specifier m.category) = t.path := by
  have hfile := isFileName_fileName ht
  have hway : (m.category.wayTo i.category).dropLast ≠ [] := by
    cases m.category <;> cases i.category <;> decide
  have hspec : i.specifier m.category ++ ".ts" =
      (m.category.wayTo i.category).dropLast ++ '/' :: t.fileName := by
    rw [Import.specifier, Category.wayTo_eq, ← hstem, fileName]
    simp
  have hfolder : ∀ c : Category, c.folder ≠ [] := by
    intro c
    cases c <;> decide
  rw [locate, hspec, path_eq hm, Path.components_file hway hfile,
    Path.normalParts_file (hfolder _) (isFileName_fileName hm),
    List.dropLast_concat, List.foldl_append, Category.descend_wayTo, path_eq ht, hcategory]
  exact Category.joinWith_folder i.category t.fileName

end Schema

end QueryValidator
