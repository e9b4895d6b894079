import QueryValidator.Text

/-!
# Imports between generated modules

A generated module belongs to a category, which decides its directory.  An `ImportList` keeps the
imports of a module in the order in which they were first needed, one for each identifier.
-/

namespace QueryValidator

inductive Category where
  | enumeration
  | object
  | operation
deriving DecidableEq, Repr

/-- The directory below `schemas`; operations stand directly in `schemas`. -/
def Category.directory? : Category → Option Text
  | .enumeration => some "enums"
  | .object => some "objects"
  | .operation => none

/-- An identifier exported by the module with the given stem. -/
structure Import where
  ident : Text
  category : Category
  stem : Text
deriving DecidableEq, Repr

/-- The way from the directory of one category to that of another. -/
def Category.wayTo (origin target : Category) : Text :=
  match origin.directory?, target.directory? with
  | some a, some b => if a = b then "./" else "../" ++ b ++ "/"
  | some _, none => "../"
  | none, some b => "./" ++ b ++ "/"
  | none, none => "./"

/-- The module specifier of the import, as seen from a module of category `origin`. -/
def Import.specifier (i : Import) (origin : Category) : Text :=
  origin.wayTo i.category ++ i.stem ++ ".schema"

def Import.statement (i : Import) (origin : Category) : Text :=
  "import \x7b " ++ i.ident ++ " \x7d from '" ++ i.specifier origin ++ "';\n"

structure ImportList where
  entries : List Import
  /-- An identifier is imported once. -/
  distinct : (entries.map Import.ident).Nodup
deriving DecidableEq

namespace ImportList

def empty : ImportList := ⟨[], List.nodup_nil⟩

def contains (l : ImportList) (ident : Text) : Bool :=
  l.entries.any fun i => i.ident == ident

theorem not_mem_of_not_contains {l : ImportList} {ident : Text}
    (h : ¬ l.contains ident = true) : ident ∉ l.entries.map Import.ident := by
  intro hm
  obtain ⟨i, hi, rfl⟩ := List.mem_map.mp hm
  exact h (List.any_eq_true.mpr ⟨i, hi, by simp⟩)

/-- Adds `i` at the end unless its identifier is imported already; tells whether it is new. -/
def offer (l : ImportList) (i : Import) : Bool × ImportList :=
  if h : l.contains i.ident = true then (false, l)
  else
    (true, ⟨l.entries ++ [i], by
      rw [List.map_append, List.nodup_append]
      refine ⟨l.distinct, by simp, ?_⟩
      intro a ha b hb hab
      simp only [List.map_cons, List.map_nil, List.mem_singleton] at hb
      subst hab hb
      exact not_mem_of_not_contains h ha⟩)

/-- The list after the offer of `i`. -/
def insert (l : ImportList) (i : Import) : ImportList :=
  (l.offer i).2

def insertAll (l : ImportList) (is : List Import) : ImportList :=
  is.foldl insert l

/-- One statement for each import, for a module of category `origin`. -/
def text (l : ImportList) (origin : Category) : Text :=
  l.entries.flatMap fun i => i.statement origin

end ImportList

end QueryValidator
