import QueryValidator.Host.Path
import QueryValidator.Text.Utf8

/-!
# The machine a run happens on

`Host m` lists what a run asks of the machine: single operations on files and directories, the
current directory and the variables of the environment.  What a run does with them is written once,
for every such `m`.
-/

namespace QueryValidator

/-- Why an operation on a file failed. -/
inductive DiskFault where
  | notFound
  | exists
  | notDirectory
  | isDirectory
  | nameTooLong
  | tooManyLinks
  | nulInName
  /-- The content is not UTF-8. -/
  | notText
  | other (number : Nat) (text : Text)
deriving DecidableEq, Repr

namespace DiskFault

def numbered (text : Text) (n : Nat) : Text :=
  text ++ " (os error " ++ Text.ofNat n ++ ")"

def message : DiskFault → Text
  | .notFound => numbered "No such file or directory" 2
  | .exists => numbered "File exists" 17
  | .notDirectory => numbered "Not a directory" 20
  | .isDirectory => numbered "Is a directory" 21
  | .nameTooLong => numbered "File name too long" 36
  | .tooManyLinks => numbered "Too many levels of symbolic links" 40
  | .nulInName => "file name contained an unexpected NUL byte"
  | .notText => "stream did not contain valid UTF-8"
  | .other n text => numbered text n

end DiskFault

/-- What was being done when an operation failed. -/
inductive DiskTask where
  | creatingOutput
  | readingOutput
  | cleaningOutput
  | creatingDirectory
  | writingSchema
  | readingSettings
deriving DecidableEq, Repr

def DiskTask.label? : DiskTask → Option Text
  | .creatingOutput => some "creating output directory"
  | .readingOutput => some "reading output directory"
  | .cleaningOutput => some "cleaning output directory"
  | .creatingDirectory => none
  | .writingSchema => some "writing schema"
  | .readingSettings => some "reading generator settings"

structure DiskFailure where
  task : DiskTask
  fault : DiskFault
  path : Text
deriving DecidableEq, Repr

def DiskFailure.message (f : DiskFailure) : Text :=
  let task := match f.task.label? with
    | some label => " (" ++ label ++ ")"
    | none => []
  "file I/O error" ++ task ++ ": " ++ f.fault.message ++ "; path: '" ++ f.path ++ "'"

/-- An entry of a directory. -/
structure DirectoryEntry where
  name : Text
  /-- A directory itself, and not a link to one. -/
  isDirectory : Bool
deriving DecidableEq, Repr

/-- What a run asks of the machine. -/
class Host (m : Type → Type) where
  /-- Makes one directory in an existing one. -/
  makeDirectory : Text → m (Except DiskFault Unit)
  /-- The path leads to a directory. -/
  isDirectory : Text → m Bool
  entries : Text → m (Except DiskFault (List DirectoryEntry))
  /-- Removes a directory with all that is in it. -/
  removeDirectory : Text → m (Except DiskFault Unit)
  /-- Removes a file or a link. -/
  removeFile : Text → m (Except DiskFault Unit)
  /-- Gives a file this content, whether it exists or not. -/
  writeFile : Text → List UInt8 → m (Except DiskFault Unit)
  readFile : Text → m (Except DiskFault (List UInt8))
  /-- The path of the current directory; the root if it has been removed. -/
  workingDirectory : m Text
  environment : Text → m (Option Text)

namespace Host

variable {m : Type → Type} [Monad m] [Host m]

/-- Makes the directories of a list from its end on; one that is there already will do. -/
def makeEach : List Text → m (Except DiskFault Unit)
  | [] => return .ok ()
  | d :: ds => do
    match ← makeEach ds with
    | .error e => return .error e
    | .ok _ =>
      match ← makeDirectory d with
      | .ok _ => return .ok ()
      | .error .exists => if ← isDirectory d then return .ok () else return .error .exists
      | .error e => return .error e

/-- Makes the first directory that can be made among `path`, its parent, and so on, `fuel` times at
most; returns those before it, which are still missing. -/
def makeFirst : (fuel : Nat) → (path : Text) → m (Except DiskFault (List Text))
  | 0, _ => return .ok []
  | n + 1, path => do
    match Path.parent? path with
    | none => return .ok []
    | some above =>
      match ← makeDirectory path with
      | .ok _ => return .ok []
      | .error .notFound => return (← makeFirst n above).map (path :: ·)
      | .error .exists => if ← isDirectory path then return .ok [] else return .error .exists
      | .error e => return .error e

/-- Makes a directory and the missing directories above it.  A parent is shorter than its path, so
that there are no more of them than the path has characters. -/
def makeDirectories (path : Text) : m (Except DiskFault Unit) := do
  match ← makeFirst path.length path with
  | .ok missing => makeEach missing
  | .error e => return .error e

/-- The content of a file as text. -/
def readText (path : Text) : m (Except DiskFault Text) := do
  match ← readFile path with
  | .error e => return .error e
  | .ok bytes =>
    match Utf8.decode bytes with
    | .ok t => return .ok t
    | .error _ => return .error .notText

end Host

end QueryValidator
