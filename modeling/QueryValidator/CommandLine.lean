import QueryValidator.Service.Validators

/-!
# The command line

`generate` reads a document from a file and writes its modules; without a command the program
answers requests.  `Command.ofArguments` reads the arguments, and `Command.run` carries a command
out: its exit code and what it prints.
-/

namespace QueryValidator

structure GenerateCommand where
  document : Text
  output : Text
  config : Option Text
  provider : Option Text
  previewFeatures : List Text
  select : Bool
  includes : Bool
  clientOutput : Option Text
deriving DecidableEq, Repr

inductive Command where
  | serve
  | version
  | help
  | generate (c : GenerateCommand)
deriving DecidableEq, Repr

/-- The arguments of `generate` as far as they have been read. -/
structure GivenArguments where
  document : Option Text
  output : Option Text
  config : Option Text
  provider : Option Text
  previewFeatures : List Text
  select : Bool
  includes : Bool
  clientOutput : Option Text
deriving DecidableEq, Repr

namespace GivenArguments

def none : GivenArguments :=
  ⟨.none, .none, .none, .none, [], false, false, .none⟩

/-- An argument that may be given once and has a value. -/
def once (given : Option Text) (value : Text) : Option (Option Text) :=
  if given.isSome then .none else some (some value)

/-- As `once`, for the name of a file, which may not be empty. -/
def path (given : Option Text) (value : Text) : Option (Option Text) :=
  if value.isEmpty then .none else once given value

/-- Sets the argument `--name` to a value; none if it has no value or is given twice. -/
def setValue (a : GivenArguments) (name value : Text) : Option GivenArguments :=
  if name = "dmmf" then (path a.document value).map fun v => { a with document := v }
  else if name = "output" then (path a.output value).map fun v => { a with output := v }
  else if name = "config" then (path a.config value).map fun v => { a with config := v }
  else if name = "provider" then (once a.provider value).map fun v => { a with provider := v }
  else if name = "preview-feature" then
    some { a with previewFeatures := a.previewFeatures ++ [value] }
  else if name = "prisma-client-output" then
    (path a.clientOutput value).map fun v => { a with clientOutput := v }
  else .none

/-- Sets the switch `--name`; none if there is no such switch or it is given twice. -/
def setSwitch (a : GivenArguments) (name : Text) : Option GivenArguments :=
  if name = "select" ∧ !a.select then some { a with select := true }
  else if name = "include" ∧ !a.includes then some { a with includes := true }
  else .none

def valueArguments : List Text :=
  ["dmmf", "output", "config", "provider", "preview-feature", "prisma-client-output"]

def takesValue (name : Text) : Bool :=
  valueArguments.contains name

/-- A text that cannot be the value of the argument before it. -/
def looksLikeArgument (t : Text) : Bool :=
  match t with
  | '-' :: _ :: _ => true
  | _ => false

end GivenArguments

namespace Command

open GivenArguments

/-- Reads the arguments of `generate`; `none` for help. -/
def readArguments (a : GivenArguments) : List Text → Option (Option GivenArguments)
  | [] => some (some a)
  | t :: ts =>
    match t with
    | ['-', '-'] => if ts.isEmpty then some (some a) else .none
    | '-' :: '-' :: body =>
      match Text.cut? "=" body with
      | some (name, value) =>
        (a.setValue name value).bind fun a => readArguments a ts
      | .none =>
        if body = "help" then some .none
        else if takesValue body then
          match ts with
          | [] => .none
          | value :: ts =>
            if looksLikeArgument value then .none
            else (a.setValue body value).bind fun a => readArguments a ts
        else (a.setSwitch body).bind fun a => readArguments a ts
    | '-' :: 'h' :: _ => some .none
    | _ => .none

/-- The command with its defaults; the document has to be given. -/
def ofGiven? (a : GivenArguments) : Option Command :=
  a.document.map fun document => .generate {
    document
    output := a.output.getD Options.defaultOutput
    config := a.config
    provider := a.provider
    previewFeatures := a.previewFeatures
    select := a.select
    includes := a.includes
    clientOutput := a.clientOutput }

/-- The arguments of `help`: nothing, or the name of a command. -/
def isHelpTopic : List Text → Bool
  | [] => true
  | [t] => t = "generate" ∨ t = "help"
  | _ => false

/-- The command that the arguments name, none if they are not understood. -/
def ofArguments? : List Text → Option Command
  | [] => some .serve
  | [['-', '-']] => some .serve
  | t :: ts =>
    if t = "--version" then some .version
    else if t = "--help" then some .help
    else if t = "generate" then
      match readArguments .none ts with
      | some (some a) => ofGiven? a
      | some .none => some .help
      | .none => .none
    else if t = "help" then if isHelpTopic ts then some .help else .none
    else match t with
      | '-' :: 'V' :: _ => some .version
      | '-' :: 'h' :: _ => some .help
      | _ => .none

end Command

/-- What a command leaves behind besides files. -/
structure Outcome where
  code : Nat
  stdout : Text
  stderr : Text
deriving DecidableEq, Repr

namespace Outcome

def done : Outcome := ⟨0, [], []⟩

/-- A cause under its number, or without one if it is the only cause; its lines are indented. -/
def causeText (number : Option Nat) (cause : Text) : Text :=
  match number with
  | none => "\n    " ++ Text.joinWith "\n    " (Text.splitAt '\n' cause)
  | some n =>
    "\n" ++ List.replicate (5 - (Text.ofNat n).length) ' ' ++ Text.ofNat n ++ ": " ++
      Text.joinWith "\n       " (Text.splitAt '\n' cause)

/-- The causes, numbered if there are several. -/
def causesText (causes : List Text) : Text :=
  match causes with
  | [] => []
  | [c] => "\n\nCaused by:" ++ causeText none c
  | cs => "\n\nCaused by:" ++ (cs.zipIdx.flatMap fun (c, i) => causeText (some i) c)

def failed (message : Text) (causes : List Text) : Outcome :=
  ⟨1, [], "Error: " ++ message ++ causesText causes ++ "\n"⟩

/-- How a run ends. -/
def ofRun : Except Failure Unit → Outcome
  | .error f => .failed f.message f.causes
  | .ok _ => .done

end Outcome

namespace GenerateCommand

variable {m : Type → Type} [Monad m] [Host m]

/-- The settings of a file, or the initial ones. -/
def baseSettings (c : GenerateCommand) : m (Except Failure Settings) := do
  match c.config with
  | none => return .ok Settings.initial
  | some path =>
    match ← Host.readText path with
    | .error fault => return .error (.disk ⟨.readingSettings, fault, path⟩)
    | .ok t => return (Settings.ofText t).mapError Failure.json

/-- Arguments come before the settings of the file. -/
def override (c : GenerateCommand) (s : Settings) : Settings where
  provider := match c.provider with
    | some tag => .ofTag tag
    | none => s.provider
  previewFeatures := Text.sortedSet (s.previewFeatures ++ c.previewFeatures)
  select := s.select || c.select
  includes := s.includes || c.includes
  clientOutput := c.clientOutput <|> s.clientOutput

def run (c : GenerateCommand) : m Outcome := do
  match ← c.baseSettings with
  | .error f => return .failed f.message f.causes
  | .ok base =>
    match ← Host.readText c.document with
    | .error fault =>
      return .failed ("failed to read DMMF document " ++ c.document) [fault.message]
    | .ok t =>
      match Document.ofText t with
      | .error f => return .failed "failed to decode DMMF document" [f.message]
      | .ok document => return .ofRun (← Output.run document (c.override base) c.output)

end GenerateCommand

namespace Command

variable {m : Type → Type} [Monad m] [Host m]

def versionText : Text := "prisma-zod-generator 0.1.0\n"

def helpText : Text :=
  "Zod schemas for Prisma query arguments\n\n" ++
  "Usage: prisma-zod-generator [COMMAND]\n\n" ++
  "Commands:\n" ++
  "  generate  Generate schemas from a DMMF JSON file\n" ++
  "  help      Print this message or the help of the given subcommand(s)\n\n" ++
  "Options:\n" ++
  "  -h, --help     Print help\n" ++
  "  -V, --version  Print version\n"

def usageText : Text :=
  "error: invalid arguments\n\nFor more information, try '--help'.\n"

/-- How a session ends on the command line. -/
def sessionEnd (fault : Option Utf8.Fault) : Outcome :=
  match fault with
  | none => .done
  | some f =>
    let failure := Failure.channel f
    .failed "generator protocol failed" (failure.message :: failure.causes)

/-- Carries out a command; `input` is all that a session is sent. -/
def run (c : Command) (input : List UInt8) : m Outcome := do
  match c with
  | .version => return ⟨0, versionText, []⟩
  | .help => return ⟨0, helpText, []⟩
  | .generate g => g.run
  | .serve =>
    let (responses, fault) ← Session.serve input
    let ending := sessionEnd fault
    return { ending with stderr := Response.written responses ++ ending.stderr }

/-- Carries out what the arguments ask for; arguments that are not understood give code 2. -/
def runArguments (args : List Text) (input : List UInt8) : m Outcome := do
  match ofArguments? args with
  | none => return ⟨2, [], usageText⟩
  | some c => c.run input

end Command

end QueryValidator
