import QueryValidator.Proofs.Module.Header
import QueryValidator.Proofs.Run.ClientImport
import QueryValidator.Proofs.Run.Writable
import QueryValidator.Proofs.Text.Literal

/-!
# The literal that names the client

The module of an object puts the specifier of the client between single quotes as it is. The literal
denotes the specifier as long as no directory on the way to the client has a quote, a backslash or
the end of a line in its name (`generate_namesClient_iff`).
-/

namespace QueryValidator

/-! ### The module of an object -/

namespace Schema

variable {t : Schema} {a : Annotation}

/-- The literal that the first line with `clientMark` goes on with, and the text after it. -/
def clientLiteral? (t : Schema) : Option (List Nat × Text) :=
  (Text.cut? clientMark t.source).bind fun (_, rest) => Literal.read rest

/-- The client is imported from a literal that denotes the specifier, with a semicolon and the end of
the line behind it. -/
def NamesClient (t : Schema) (specifier : Text) : Prop :=
  ∃ after, t.clientLiteral? = some (Literal.units specifier, ';' :: '\n' :: after)

theorem exists_source_of_object (h : t.object = some a) : ∃ rest, t.source =
    zodImport ++ t.imports.text t.category ++
      (clientMark ++ ('\'' :: (a.clientImport ++ Literal.closing rest))) := by
  have hmark : "import type \x7b Prisma \x7d from '".toList = clientMark ++ ['\''] := rfl
  have hend : "';\n\n".toList = '\'' :: ';' :: '\n' :: ['\n'] := rfl
  unfold source
  rw [h]
  simp only [hmark, hend, List.append_assoc, List.cons_append, List.nil_append]
  exact ⟨_, rfl⟩

theorem clientLiteral?_eq (h : t.object = some a) (himports : ∀ i ∈ t.imports.entries, i.Writable) :
    ∃ rest, t.clientLiteral? =
      Literal.read ('\'' :: (a.clientImport ++ Literal.closing rest)) := by
  obtain ⟨rest, hsource⟩ := exists_source_of_object h
  refine ⟨rest, ?_⟩
  rw [clientLiteral?, hsource, header_eq,
    Text.cut?_lines (by decide) (clientMark_not_in_header himports)]
  rfl

theorem namesClient_iff (h : t.object = some a)
    (himports : ∀ i ∈ t.imports.entries, i.Writable) :
    t.NamesClient a.clientImport ↔ ∀ c ∈ a.clientImport, Literal.IsPlain c := by
  obtain ⟨rest, hliteral⟩ := clientLiteral?_eq h himports
  rw [NamesClient, hliteral]
  exact Literal.read_enclosed_iff

end Schema

theorem InputObject.namesClient_iff {o : InputObject} {config : Config} {t : Schema}
    (h : o.schema config = .ok t) :
    t.NamesClient config.clientImport ↔ ∀ c ∈ config.clientImport, Literal.IsPlain c := by
  obtain ⟨⟨-, hfields⟩, rfl⟩ := schema_eq_ok_iff.mp h
  exact Schema.namesClient_iff rfl (writable_imports hfields)

/-! ### Runs -/

/-- **When the client's literal denotes its specifier**: in the modules of input types it does so
exactly if no character of the specifier means something else between single quotes. -/
theorem generate_namesClient_iff (d : Document) (s : Settings) (workingDir output : Text)
    {ts : List Schema} (hrun : generate d s workingDir output = .ok ts) {t : Schema} (ht : t ∈ ts)
    (hobject : t.category = .object) :
    t.NamesClient (Config.ofRun s d workingDir output).clientImport ↔
      ∀ c ∈ (Config.ofRun s d workingDir output).clientImport, Literal.IsPlain c := by
  obtain ⟨o, -, hschema⟩ := Document.exists_input_of_object hrun ht hobject
  exact InputObject.namesClient_iff hschema

/-- Users that are filtered by their friends. -/
def userFilter : InputObject where
  name := "UserWhereInput"
  fields := [⟨"friend", false, false, [⟨.object "PersonWhereInput" .generated, false⟩]⟩]
  constraints := .free

def users : Document where
  models := []
  inputTypes := [⟨"UserWhereInput", .free, [
    ⟨"friend", false, false, [⟨"PersonWhereInput", some .prisma, .inputObjectTypes, false⟩]⟩]⟩]
  modelInputTypes := []
  schemaEnums := []
  modelEnums := []
  mappings := []

/-- The configuration of a run for a client at `client`. -/
def usersConfig (client : Text) : Config :=
  Config.ofRun (.withClient client) users "/" "/repo/out"

theorem users_namesClient :
    generate users (.withClient "/repo/my client") "/" "/repo/out" =
      .ok [userFilter.resolved (usersConfig "/repo/my client")] ∧
    (userFilter.resolved (usersConfig "/repo/my client")).NamesClient "../../../my client" := by
  have hrun : generate users (.withClient "/repo/my client") "/" "/repo/out" =
      .ok [userFilter.resolved (usersConfig "/repo/my client")] := rfl
  have hplain : ∀ c ∈ "../../../my client".toList, Literal.IsPlain c := by simp [Literal.IsPlain]
  exact ⟨hrun, (generate_namesClient_iff users _ "/" "/repo/out" hrun List.mem_cons_self rfl).mpr
    hplain⟩

/-- The apostrophe in the name of a directory ends the literal. -/
theorem apostrophe_not_namesClient :
    generate users (.withClient "/repo/it's") "/" "/repo/out" =
      .ok [userFilter.resolved (usersConfig "/repo/it's")] ∧
    (usersConfig "/repo/it's").clientImport = "../../../it's" ∧
    ¬ (userFilter.resolved (usersConfig "/repo/it's")).NamesClient
      (usersConfig "/repo/it's").clientImport := by
  have hschema : userFilter.schema (usersConfig "/repo/it's") =
      .ok (userFilter.resolved (usersConfig "/repo/it's")) := rfl
  have hquote : '\'' ∈ "../../../it's".toList := by decide
  refine ⟨rfl, rfl, fun hnames => ?_⟩
  exact ((InputObject.namesClient_iff hschema).mp hnames '\'' hquote).1 rfl

end QueryValidator
