import QueryValidator.Host.Disk
import QueryValidator.Run.Failure
import QueryValidator.Run.Generation

/-!
# The output directory

A run empties its output directory and writes one file for each module, and the index last.
-/

namespace QueryValidator.Output

variable {m : Type → Type} [Monad m] [Host m]

/-- Labels the fault of an operation with what was being done. -/
def labelled {α : Type} (task : DiskTask) (path : Text) (r : Except DiskFault α) :
    Except DiskFailure α :=
  r.mapError fun fault => ⟨task, fault, path⟩

/-- Removes an entry of a directory; a link goes, and what it leads to stays. -/
def removeEntry (directory : Text) (e : DirectoryEntry) : m (Except DiskFailure Unit) := do
  let path := Path.join directory e.name
  let r ← if e.isDirectory then Host.removeDirectory path else Host.removeFile path
  return labelled .cleaningOutput path r

def removeEntries (directory : Text) : List DirectoryEntry → m (Except DiskFailure Unit)
  | [] => return .ok ()
  | e :: es => do
    match ← removeEntry directory e with
    | .error f => return .error f
    | .ok _ => removeEntries directory es

/-- Makes the output directory, if need be, and removes everything in it. -/
def prepare (output : Text) : m (Except DiskFailure Unit) := do
  match labelled .creatingOutput output (← Host.makeDirectories output) with
  | .error f => return .error f
  | .ok _ =>
    match labelled .readingOutput output (← Host.entries output) with
    | .error f => return .error f
    | .ok entries => removeEntries output entries

/-- Makes the directories above a file. -/
def makeParent (path : Text) : m (Except DiskFailure Unit) := do
  match Path.parent? path with
  | some directory =>
    return labelled .creatingDirectory directory (← Host.makeDirectories directory)
  | none => return .ok ()

/-- Writes a file, making the directories above it. -/
def writeFile (path source : Text) : m (Except DiskFailure Unit) := do
  match ← makeParent path with
  | .error f => return .error f
  | .ok _ => return labelled .writingSchema path (← Host.writeFile path (Utf8.encode source))

def writeFiles : List (Text × Text) → m (Except DiskFailure Unit)
  | [] => return .ok ()
  | (path, source) :: files => do
    match ← writeFile path source with
    | .error f => return .error f
    | .ok _ => writeFiles files

def indexPath : Text := "schemas/index.ts"

/-- The files of some modules, with their places below the output directory, the index last. -/
def files (schemas : List Schema) : List (Text × Text) :=
  schemas.map (fun s => (s.path, s.source)) ++ [(indexPath, indexSource schemas)]

/-- The files of some modules below `output`. -/
def filesOf (output : Text) (schemas : List Schema) : List (Text × Text) :=
  (files schemas).map fun (path, source) => (Path.join output path, source)

/-- Writes some modules and their index; returns the paths written. -/
def write (output : Text) (schemas : List Schema) : m (Except DiskFailure (List Text)) := do
  let files := filesOf output schemas
  return (← writeFiles files).map fun _ => files.map Prod.fst

/-- A whole run on the machine: the output directory is emptied before the modules are made, so
that nothing of an earlier run is left when the document is refused. -/
def run (document : Document) (settings : Settings) (output : Text) : m (Except Failure Unit) := do
  match ← prepare output with
  | .error f => return .error (.disk f)
  | .ok _ =>
    match generate document settings (← Host.workingDirectory) output with
    | .error v => return .error (.violation v)
    | .ok schemas =>
      match ← write output schemas with
      | .error f => return .error (.disk f)
      | .ok _ => return .ok ()

end QueryValidator.Output
