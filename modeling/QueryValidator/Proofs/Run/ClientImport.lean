import QueryValidator.Proofs.Host.Specifier
import QueryValidator.Run.Config

/-!
# The specifier of the client

Where the modules of objects import a client from that has a place of its own: the specifier is the
way from their directory to that place (`clientImport_leads`). It is not marked as relative if the
client is below the directory under a name that begins with two dots
(`clientImport_isRelative_iff`).
-/

namespace QueryValidator

theorem objectDirectory_ne_nil (output : Text) : objectDirectory output ≠ [] := by
  have hjoin : ∀ p q : Text, q ≠ [] → Path.join p q ≠ [] := by
    intro p q hq
    unfold Path.join
    split
    · exact hq
    · split <;> simp [hq]
  exact hjoin _ _ (by decide)

variable {s : Settings} {client : Text}

theorem clientImport_eq (d : Document) (workingDir output : Text)
    (hclient : s.clientOutput = some client) (hne : client ≠ [])
    (hother : client ≠ installedClient) :
    (Config.ofRun s d workingDir output).clientImport =
      Path.relativeText (Path.placeOf workingDir (objectDirectory output))
        (Path.placeOf workingDir client) := by
  rw [Config.ofRun, hclient, clientSpecifier, if_neg hother,
    Path.absoluteParts_eq_placeOf (objectDirectory_ne_nil output),
    Path.absoluteParts_eq_placeOf hne]

/-- **The specifier leads to the client**: gone along from the directory of the object modules, its
segments lead to the place of the client. They go up first, as far as to where the ways to the two
places part, and never again. -/
theorem clientImport_leads (d : Document) (workingDir output : Text)
    (hclient : s.clientOutput = some client) (hne : client ≠ [])
    (hother : client ≠ installedClient) :
    let specifier := (Config.ofRun s d workingDir output).clientImport
    let origin := Path.placeOf workingDir (objectDirectory output)
    let target := Path.placeOf workingDir client
    Path.follow origin specifier = target ∧
      ∃ meeting rest, Path.IsMeeting meeting origin target ∧
        Text.splitAt '/' specifier =
          List.replicate (origin.length - meeting.length) ['.', '.'] ++ rest ∧
        ['.', '.'] ∉ rest := by
  intro specifier origin target
  have hspecifier : specifier = Path.relativeText origin target :=
    clientImport_eq d workingDir output hclient hne hother
  rw [hspecifier]
  exact Path.follow_relativeText Path.isFileName_of_mem_placeOf

/-- The settings for a client that is at `client`. -/
def Settings.withClient (client : Text) : Settings :=
  { Settings.initial with clientOutput := some client }

/-- The ways to the modules and to the client part below `/home`, whatever else the paths go
through. -/
theorem home_clientImport_leads :
    (Config.ofRun (.withClient "./lib/../.prisma//client/") ⟨[], [], [], [], [], []⟩
      "/home/me" "../out/.").clientImport = "../../../me/.prisma/client" ∧
    Path.follow ["home", "out", "schemas", "objects"] "../../../me/.prisma/client" =
      (["home", "me", ".prisma", "client"] : List Text) := by
  obtain ⟨hleads, -⟩ := clientImport_leads (s := .withClient "./lib/../.prisma//client/")
    ⟨[], [], [], [], [], []⟩ "/home/me" "../out/." rfl (by decide) (by decide)
  exact ⟨rfl, hleads⟩

/-- **When the specifier is relative**: always but for a client below the directory of the object
modules whose first name from there on begins with two dots, as a step up does. -/
theorem clientImport_isRelative_iff (d : Document) (workingDir output : Text)
    (hclient : s.clientOutput = some client) (hne : client ≠ [])
    (hother : client ≠ installedClient) :
    Path.IsRelative (Config.ofRun s d workingDir output).clientImport ↔
      ¬ ∃ name rest, Path.placeOf workingDir client =
        Path.placeOf workingDir (objectDirectory output) ++ name :: rest ∧
          ['.', '.'] <+: name := by
  rw [clientImport_eq d workingDir output hclient hne hother]
  exact Path.isRelative_relativeText Path.isFileName_of_mem_placeOf

/-- A client beside the modules is imported by a relative specifier. -/
theorem repo_clientImport_isRelative : Path.IsRelative
    (Config.ofRun (.withClient "/repo/..client") ⟨[], [], [], [], [], []⟩ "/" "/repo").clientImport
    := by
  refine (clientImport_isRelative_iff _ "/" "/repo" rfl (by decide) (by decide)).mpr ?_
  have hbeside : ¬ Path.placeOf "/" (objectDirectory "/repo") <+:
      Path.placeOf "/" "/repo/..client" := by decide
  rintro ⟨name, rest, h, -⟩
  exact hbeside ⟨_, h.symm⟩

/-- A directory below the modules whose name begins with two dots is taken for a step up, and its
specifier for that of a package. -/
theorem dotted_clientImport_not_isRelative : ∃ s : Settings,
    s.clientOutput = some "/repo/out/schemas/objects/..client".toList ∧
    (Config.ofRun s ⟨[], [], [], [], [], []⟩ "/" "/repo/out").clientImport = "..client" ∧
    ¬ Path.IsRelative (Config.ofRun s ⟨[], [], [], [], [], []⟩ "/" "/repo/out").clientImport :=
  ⟨.withClient "/repo/out/schemas/objects/..client", rfl, rfl, by decide⟩

end QueryValidator
