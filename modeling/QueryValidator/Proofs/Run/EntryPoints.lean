import QueryValidator.Proofs.Run.Effect
import QueryValidator.Proofs.Service.Environment
import QueryValidator.Proofs.Service.Session

/-!
# The effect of a command and of a request

The command line and the request loop read what they are given before a run touches the machine: if
that fails, nothing changes and the failure is told. Otherwise both leave what the run leaves, and
tell how it ended (`entryPoints_effect`). An output directory whose path goes through what is in it
is not emptied (`refused_request_not_emptied`).
-/

namespace QueryValidator

open FileTree Output

namespace Machine

variable {w : Machine} {path : Text}

theorem readText_state (path : Text) (w : Machine) :
    ((Host.readText path : StateM Machine _) w).2 = w := by
  have hread : (Host.readFile path : StateM Machine _) w =
      (w.tree.readFile w.workingDirectory path, w) := rfl
  rw [Host.readText, run_bind, hread]
  cases w.tree.readFile w.workingDirectory path with
  | error e => rfl
  | ok bytes => cases hd : Utf8.decode bytes <;> simp only [hd] <;> rfl

theorem readText_eq {r : Except DiskFault Text}
    (h : ((Host.readText path : StateM Machine _) w).1 = r) :
    (Host.readText path : StateM Machine _) w = (r, w) :=
  Prod.ext h (readText_state path w)

end Machine

/-! ### The command line -/

namespace GenerateCommand

open Machine

/-- What `generate` does on a machine. -/
structure Effect (c : GenerateCommand) (w : Machine) : Prop where
  /-- Without settings nothing changes. -/
  noSettings : ∀ f, ((c.baseSettings : StateM Machine _) w).1 = .error f →
    (c.run : StateM Machine _) w = (.failed f.message f.causes, w)
  /-- Without a document nothing changes. -/
  noDocument : ∀ base fault, ((c.baseSettings : StateM Machine _) w).1 = .ok base →
    ((Host.readText c.document : StateM Machine _) w).1 = .error fault →
    (c.run : StateM Machine _) w =
      (.failed ("failed to read DMMF document " ++ c.document) [fault.message], w)
  /-- If the document cannot be decoded nothing changes. -/
  undecoded : ∀ base t f, ((c.baseSettings : StateM Machine _) w).1 = .ok base →
    ((Host.readText c.document : StateM Machine _) w).1 = .ok t → Document.ofText t = .error f →
    (c.run : StateM Machine _) w = (.failed "failed to decode DMMF document" [f.message], w)
  /-- A document that can be decoded is run on, and the outcome tells how that ends. -/
  decoded : ∀ base t d place, ((c.baseSettings : StateM Machine _) w).1 = .ok base →
    ((Host.readText c.document : StateM Machine _) w).1 = .ok t → Document.ofText t = .ok d →
    Undisturbed d (c.override base) c.output place w →
    ∃ r w', (c.run : StateM Machine _) w = (.ofRun r, w') ∧
      Output.Effect d (c.override base) c.output place w r w'

variable {c : GenerateCommand} {w : Machine}

theorem baseSettings_state (c : GenerateCommand) (w : Machine) :
    ((c.baseSettings : StateM Machine _) w).2 = w := by
  rw [baseSettings]
  cases c.config with
  | none => rfl
  | some path =>
    have hstate := Machine.readText_state path w
    show (((Host.readText path : StateM Machine _) >>= _) w).2 = w
    rw [run_bind, hstate]
    cases ((Host.readText path : StateM Machine _) w).1 <;> rfl

theorem baseSettings_eq {r : Except Failure Settings}
    (h : ((c.baseSettings : StateM Machine _) w).1 = r) :
    (c.baseSettings : StateM Machine _) w = (r, w) :=
  Prod.ext h (baseSettings_state c w)

/-- With settings, the command is a matter of the text of its document. -/
theorem run_of_settings {base : Settings} {r : Except DiskFault Text}
    (hf : ((c.baseSettings : StateM Machine _) w).1 = .ok base)
    (ht : ((Host.readText c.document : StateM Machine _) w).1 = r) :
    (c.run : StateM Machine _) w =
      match r.map Document.ofText with
      | .error fault => (.failed ("failed to read DMMF document " ++ c.document) [fault.message], w)
      | .ok (.error f) => (.failed "failed to decode DMMF document" [f.message], w)
      | .ok (.ok d) =>
        Prod.map Outcome.ofRun id
          ((Output.run d (c.override base) c.output : StateM Machine _) w) := by
  rw [run, run_bind, baseSettings_eq hf]
  show ((Host.readText c.document : StateM Machine _) >>= _) w = _
  rw [run_bind, readText_eq ht]
  cases r with
  | error fault => rfl
  | ok t =>
    simp only [Except.map]
    cases Document.ofText t <;> rfl

theorem effect_of_command (hnames : w.WellNamed) (c : GenerateCommand) : c.Effect w := by
  constructor
  case noSettings =>
    intro f hf
    rw [run, run_bind, baseSettings_eq hf]
    rfl
  case noDocument =>
    intro base fault hf ht
    rw [run_of_settings hf ht]
    rfl
  case undecoded =>
    intro base t f hf ht hd
    rw [run_of_settings hf ht, Except.map, hd]
  case decoded =>
    intro base t d place hf ht hd hrun
    refine ⟨_, _, ?_, effect_of_run hnames hrun⟩
    rw [run_of_settings hf ht, Except.map, hd]
    rfl

end GenerateCommand

/-! ### The request loop -/

/-- How the end of a run is answered. -/
def Answer.ofRun : Except Failure Unit → Answer
  | .error f => .failed f.message
  | .ok _ => .result .null

namespace Session

/-- What a request to generate does on a machine. -/
structure Effect (q : Request) (w : Machine) : Prop where
  /-- If the options cannot be decoded nothing changes. -/
  undecoded : ∀ f, Options.ofJson q.params = .error f →
    (validators : Generator (StateM Machine)).reply q w = (⟨q.id, .invalidOptions f⟩, w)
  /-- Options that can be decoded are run on, and the answer tells how that ends. -/
  decoded : ∀ o place, Options.ofJson q.params = .ok o →
    Undisturbed o.document (o.settings w.env) (o.output w.env) place w →
    ∃ r w', (validators : Generator (StateM Machine)).reply q w = (⟨q.id, .ofRun r⟩, w') ∧
      Output.Effect o.document (o.settings w.env) (o.output w.env) place w r w'

theorem effect_of_request {w : Machine} (hnames : w.WellNamed) {q : Request}
    (hq : q.method = "generate".toList) : Effect q w := by
  constructor
  · intro f hf
    rw [Generator.reply_of_invalidOptions _ hq hf]
    rfl
  · intro o place ho hrun
    refine ⟨_, _, ?_, effect_of_run hnames hrun⟩
    have hmanifest : q.method ≠ "getManifest".toList := by
      rw [hq]
      decide
    have hmap : ∀ x : StateM Machine Answer,
        ((Response.mk q.id ·) <$> x) w = (⟨q.id, (x w).1⟩, (x w).2) := fun _ => rfl
    rw [Generator.reply, Generator.answer, if_neg hmanifest, if_pos hq, ho, hmap, ← generate_eq o w]
    cases hrun : (generate o : StateM Machine _) w with
    | mk r w' =>
      have hgenerate : ((validators : Generator (StateM Machine)).generate o) w =
          (r.mapError Failure.message, w') := by
        show ((generate o : StateM Machine _) >>= _) w = _
        rw [Machine.run_bind, hrun]
        rfl
      simp only [Machine.run_bind, hgenerate]
      cases r <;> rfl

end Session

/-- **The effect of the entry points**: what cannot be read changes nothing, and what can be read has
the effect of a run. -/
theorem entryPoints_effect {w : Machine} (hnames : w.WellNamed) :
    (∀ c : GenerateCommand, c.Effect w) ∧
      ∀ q : Request, q.method = "generate".toList → Session.Effect q w :=
  ⟨GenerateCommand.effect_of_command hnames, fun _ hq => Session.effect_of_request hnames hq⟩

/-! ### A directory that is emptied -/

def roleText : Text :=
  "\x7b\"datamodel\":\x7b\"models\":[]\x7d,\"schema\":\x7b\"inputObjectTypes\":\x7b\x7d," ++
  "\"enumTypes\":\x7b\"prisma\":[\x7b\"name\":\"Role\",\"values\":[\"A\"]\x7d]\x7d\x7d," ++
  "\"mappings\":\x7b\"modelOperations\":[]\x7d\x7d"

/-- What an earlier run, and others, may have left: a file, a link and a directory. -/
def staleOutput : List (Text × Node) :=
  [("old.ts", .file []), ("docs", .link "../keep"), ("sub", .directory [("a", .file [])])]

def stale : Machine where
  tree := ⟨[("doc.json", .file (Utf8.encode roleText)), ("out", .directory staleOutput),
    ("keep", .directory [("notes", .file [])])]⟩
  workingDirectory := []
  environment := []

/-- The command that generates into the stale output directory. -/
def staleCommand : GenerateCommand :=
  ⟨"doc.json", "out", none, none, [], false, false, none⟩

/-- A request that generates into it from a document that is refused. -/
def staleRequest : Request where
  id := .number (.nat 1)
  method := "generate"
  params := .ofMembers [
    ("generator", .ofMembers [("name", .string "z"),
      ("provider", .ofMembers [("value", .string "x")]),
      ("output", .ofMembers [("value", .string "out")])]),
    ("dmmf", .ofMembers [("datamodel", .ofMembers [("models", .array [])]),
      ("schema", .ofMembers [("inputObjectTypes", .ofMembers []),
        ("enumTypes", .ofMembers [("prisma", .array [
          .ofMembers [("name", .string "a-b"), ("values", .array [.string "A"])]])])]),
      ("mappings", .ofMembers [("modelOperations", .array [])])])]

def staleOptions : Options where
  generator := ⟨"z", ⟨some "x", none⟩, some ⟨some "out", none⟩, .empty, [], false⟩
  others := []
  document := ⟨[], [], [], [⟨"a-b", ["A"]⟩], [], []⟩
  datasources := []

def roleDocument : Document :=
  ⟨[], [], [], [⟨"Role", ["A"]⟩], [], []⟩

theorem wellNamed_stale : stale.WellNamed := by
  have hsub : Machine.NamedNode (.directory [("a", .file [])]) :=
    .directory _ (by unfold Path.IsFileName; decide) (List.forall_mem_singleton.mpr (.file []))
  have hout : Machine.NamedNode (.directory staleOutput) := by
    refine .directory _ (by unfold Path.IsFileName; decide) ?_
    exact List.forall_mem_cons.mpr ⟨.file [],
      List.forall_mem_cons.mpr ⟨.link _, List.forall_mem_singleton.mpr hsub⟩⟩
  have hkeep : Machine.NamedNode (.directory [("notes", .file [])]) :=
    .directory _ (by unfold Path.IsFileName; decide) (List.forall_mem_singleton.mpr (.file []))
  refine Machine.wellNamed_of_namedNode (.directory _ (by unfold Path.IsFileName; decide) ?_)
  exact List.forall_mem_cons.mpr ⟨.file _,
    List.forall_mem_cons.mpr ⟨hout, List.forall_mem_singleton.mpr hkeep⟩⟩

theorem standsAt_stale : StandsAt "out" ["out"] stale := by
  show StandsAt "out" ([] ++ Route.partsOf "out") stale
  refine standsAt_of_names ⟨by decide, by decide, by decide⟩ (by decide +kernel) ?_ ?_
  · intro x hx
    rw [List.mem_singleton.mp hx]
    exact ⟨by decide, by decide, by decide⟩
  · intro front hfront
    rcases List.prefix_cons_iff.mp hfront with rfl | ⟨rest, rfl, hrest⟩
    · rfl
    · rw [List.prefix_nil.mp hrest]
      decide +kernel

theorem modules_role : modules roleDocument Settings.initial "out" stale =
    .ok (roleDocument.resolved (Config.ofRun Settings.initial roleDocument "/" "out")) := rfl

theorem undisturbed_role : Undisturbed roleDocument Settings.initial "out" ["out"] stale where
  stands := standsAt_stale
  noFault f := by
    have hrun : ((run roleDocument Settings.initial "out" : StateM Machine _) stale).1 = .ok () := by
      decide +kernel
    rw [hrun]
    intro h
    cases h
  distinct ts hts := by
    rw [modules_role] at hts
    cases hts
    decide +kernel

theorem modules_refused : modules staleOptions.document Settings.initial "out" stale =
    .error (.enumName "a-b") := rfl

theorem undisturbed_refused :
    Undisturbed staleOptions.document Settings.initial "out" ["out"] stale where
  stands := standsAt_stale
  noFault f := by
    have hrun : ((run staleOptions.document Settings.initial "out" : StateM Machine _) stale).1 =
        .error (.violation (.enumName "a-b")) := by decide +kernel
    rw [hrun]
    intro h
    cases h
  distinct ts hts := by
    rw [modules_refused] at hts
    cases hts

set_option maxRecDepth 10000 in
/-- Into the stale directory a command writes its files and no others are left, a refused request
leaves nothing there, and what the link leads to stays. -/
theorem stale_effect :
    (∃ w', (staleCommand.run : StateM Machine _) stale = (.done, w') ∧
      (∃ source, w'.tree.label? ["out", "schemas", "enums", "Role.schema.ts"] =
        some (.file source)) ∧
      (∀ content, w'.tree.label? ["out", "old.ts"] ≠ some (.file content)) ∧
      w'.tree.label? ["keep", "notes"] = some (.file [])) ∧
    ∃ v w', (Session.validators : Generator (StateM Machine)).reply staleRequest stale =
        (⟨.number (.nat 1), .failed v⟩, w') ∧
      w'.tree.node? ["out"] = some (.directory []) ∧
      w'.tree.label? ["keep", "notes"] = some (.file []) := by
  obtain ⟨hcommand, hrequest⟩ := entryPoints_effect wellNamed_stale
  have hkeep : ∀ {d : Document} {r : Except Failure Unit} {w' : Machine},
      Output.Effect d Settings.initial "out" ["out"] stale r w' →
        w'.tree.label? ["keep", "notes"] = some (.file []) := by
    intro d r w' heffect
    rcases heffect.outside ["keep", "notes"] (by decide) with hsame | ⟨hnone, -⟩
    · exact hsame.trans (by decide +kernel)
    · exact absurd hnone (by decide +kernel)
  constructor
  · obtain ⟨r, w', hrun, heffect⟩ := (hcommand staleCommand).decoded Settings.initial roleText
      roleDocument ["out"] rfl (by decide +kernel) rfl undisturbed_role
    obtain ⟨rfl, hfiles, -⟩ := heffect.written _ modules_role
    refine ⟨w', hrun, ⟨_, (hfiles _ _).mpr ⟨_, List.mem_cons_self, rfl, rfl⟩⟩, ?_,
      hkeep heffect⟩
    intro content hold
    obtain ⟨f, hf, hname, -⟩ := (hfiles ["old.ts"] content).mp hold
    have hpaths : ∀ p ∈ (files (roleDocument.resolved
        (Config.ofRun Settings.initial roleDocument "/" "out"))).map Prod.fst,
          ["old.ts".toList] ≠ Text.splitAt '/' p := by decide +kernel
    exact hpaths f.1 (List.mem_map_of_mem hf) hname
  · obtain ⟨r, w', hrun, heffect⟩ := (hrequest staleRequest rfl).decoded staleOptions ["out"] rfl
      undisturbed_refused
    obtain ⟨rfl, hempty⟩ := heffect.refused _ modules_refused
    exact ⟨_, w', hrun, hempty, hkeep heffect⟩

/-! ### A directory that is not -/

def bare : Machine := ⟨⟨[]⟩, [], []⟩

/-- A request that is refused, with a path that goes through the output directory itself. -/
def ghostRequest : Request where
  id := .number (.nat 1)
  method := "generate"
  params := .ofMembers [
    ("generator", .ofMembers [("name", .string "z"),
      ("provider", .ofMembers [("value", .string "x")]),
      ("output", .ofMembers [("value", .string "x/y/../..")])]),
    ("dmmf", .ofMembers [("datamodel", .ofMembers [("models", .array [])]),
      ("schema", .ofMembers [("inputObjectTypes", .ofMembers []), ("enumTypes", .ofMembers [])]),
      ("mappings", .ofMembers [("modelOperations", .array [
        .ofMembers [("model", .string "Ghost"), ("findMany", .string "f")]])])])]

/-- The machine after the request. -/
def haunted : Machine :=
  ((Session.validators : Generator (StateM Machine)).reply ghostRequest bare).2

/-- The output directory is the current one, whose path goes through `x`, and `x` is removed through
that path: its entry goes, and with it the way back, so that `x` stays in a directory that should be
empty, and the path leads to it no longer. -/
theorem refused_request_not_emptied :
    (made "x/y/../.." bare).tree.LeadsTo (made "x/y/../.." bare).workingDirectory "x/y/../.." [] ∧
      ((Session.validators : Generator (StateM Machine)).reply ghostRequest bare).1.text =
        "\x7b\"jsonrpc\":\"2.0\",\"id\":1,\"error\":\x7b\"code\":-32000,".toList ++
          "\"message\":\"model operations reference unknown model `Ghost`\"\x7d\x7d".toList ∧
      haunted.tree.label? ["x"] = some .directory ∧
      haunted.tree.isDirectory haunted.workingDirectory "x/y/../.." = false :=
  ⟨⟨_, rfl⟩, by decide +kernel⟩

end QueryValidator
