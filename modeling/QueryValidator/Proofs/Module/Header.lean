import QueryValidator.Module.Schema
import QueryValidator.Proofs.Name.Writable

/-!
# The lines above the declarations

A module begins with a line that imports the library and a line for each of its imports. The module
of an object imports the client behind them, and `clientMark` begins no line above.
-/

namespace QueryValidator

/-- The line that imports the library. -/
def libraryLine : Text := "import \x7b z \x7d from 'zod';"

/-- The line of an import. -/
def Import.line (i : Import) (origin : Category) : Text :=
  "import \x7b " ++ i.ident ++ " \x7d from '" ++ i.specifier origin ++ "';"

/-- How the line begins that imports the client. -/
def clientMark : Text := "import type \x7b Prisma \x7d from "

theorem Import.statement_eq (i : Import) (origin : Category) :
    i.statement origin = i.line origin ++ ['\n'] := by
  have hend : "';\n".toList = "';".toList ++ ['\n'] := rfl
  unfold statement line
  simp only [hend, List.append_assoc]

/-- The names of an import are without blanks. -/
theorem Import.Writable.count_blank {i : Import} (h : i.Writable) (origin : Category) :
    (i.line origin).count ' ' = 5 := by
  have hident : i.ident.count ' ' = 0 :=
    List.count_eq_zero.mpr (Text.not_mem_of_isIdentifier h.ident (by decide))
  have hstem : i.stem.count ' ' = 0 :=
    List.count_eq_zero.mpr (Text.not_mem_of_isIdentifier h.stem (by decide))
  have hway : (origin.wayTo i.category).count ' ' = 0 := by
    cases origin <;> cases i.category <;> decide
  have hstart : "import \x7b ".toList.count ' ' = 2 := by decide
  have hfrom : " \x7d from '".toList.count ' ' = 3 := by decide
  have hending : ".schema".toList.count ' ' = 0 := by decide
  have hend : "';".toList.count ' ' = 0 := by decide
  unfold line specifier
  simp only [List.count_append, hident, hstem, hway, hstart, hfrom, hending, hend]

namespace Schema

variable {t : Schema}

/-- The lines above the declarations, without that of the client. -/
def headerLines (t : Schema) : List Text :=
  libraryLine :: t.imports.entries.map fun i => i.line t.category

theorem header_eq (t : Schema) :
    zodImport ++ t.imports.text t.category = t.headerLines.flatMap (· ++ ['\n']) := by
  have hlibrary : zodImport = libraryLine ++ ['\n'] := rfl
  have hstatements : ∀ is : List Import, (is.flatMap fun i => i.statement t.category) =
      (is.map fun i => i.line t.category).flatMap (· ++ ['\n']) := by
    intro is
    rw [List.flatMap_map]
    exact congrArg (is.flatMap ·) (funext fun i => i.statement_eq t.category)
  rw [headerLines, List.flatMap_cons, hlibrary, ImportList.text, hstatements]

/-- No line but its own has the beginning of the line that imports the client: it has more blanks
than they have. -/
theorem clientMark_not_in_header (h : ∀ i ∈ t.imports.entries, i.Writable) :
    ∀ line ∈ t.headerLines, ¬ clientMark <:+: line := by
  have hmark : clientMark.count ' ' = 6 := by decide
  have hlibrary : libraryLine.count ' ' = 5 := by decide
  have hcount : ∀ line ∈ t.headerLines, line.count ' ' = 5 :=
    List.forall_mem_cons.mpr
      ⟨hlibrary, List.forall_mem_map.mpr fun i hi => (h i hi).count_blank t.category⟩
  intro line hline
  refine Text.not_infix_of_count_lt (c := ' ') ?_
  rw [hcount line hline, hmark]
  decide

end Schema

end QueryValidator
