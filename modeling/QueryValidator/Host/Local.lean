import QueryValidator.Host.Disk

/-!
# The machine the program runs on

`IO` as a `Host`: the files, the current directory and the environment of the running program.
-/

namespace QueryValidator.LocalHost

/-- The number and the description of a failed system call. -/
def callOf : IO.Error → Nat × String
  | .alreadyExists _ n t | .interrupted _ n t | .noFileOrDirectory _ n t
  | .invalidArgument _ n t | .permissionDenied _ n t | .resourceExhausted _ n t
  | .inappropriateType _ n t | .noSuchThing _ n t | .otherError n t | .resourceBusy n t
  | .resourceVanished n t | .unsupportedOperation n t | .hardwareFault n t
  | .unsatisfiedConstraints n t | .illegalOperation n t | .protocolError n t
  | .timeExpired n t => (n.toNat, t)
  | .unexpectedEof => (0, "unexpected end of file")
  | .userError t => (0, t)

/-- The number of a fault; some calls give it negated, as a 32 bit word. -/
def errorNumber (n : Nat) : Nat :=
  if n < 2147483648 then n else 4294967296 - n

def faultOf (e : IO.Error) : DiskFault :=
  let (n, t) := callOf e
  match errorNumber n, t with
  | 2, _ => .notFound
  | 17, _ => .exists
  | 20, _ => .notDirectory
  | 21, _ => .isDirectory
  | 36, _ => .nameTooLong
  | 40, _ => .tooManyLinks
  | n, t => .other n t.toList

/-- Runs an operation on the file at a path; its failure is a value. -/
def attempt {α : Type} (path : Text) (operation : String → IO α) : IO (Except DiskFault α) := do
  if path.contains (Char.ofNat 0) then return .error .nulInName
  match ← (operation (String.ofList path)).toBaseIO with
  | .ok x => return .ok x
  | .error e => return .error (faultOf e)

/-- The directory at a path, as the place where entries are. -/
def directoryAt (path : String) : IO.FS.DirEntry :=
  ⟨path, ""⟩

def entriesAt (path : String) : IO (List DirectoryEntry) := do
  let entries ← (directoryAt path).root.readDir
  entries.toList.mapM fun entry => do
    let type := (← entry.path.symlinkMetadata).type
    return ⟨entry.fileName.toList, type == .dir⟩

/-- Removes an entry, with all that is in it if it is a directory itself. -/
def removeEntry (entry : IO.FS.DirEntry) : IO Unit := do
  if (← entry.path.symlinkMetadata).type == .dir then IO.FS.removeDirAll entry.path
  else IO.FS.removeFile entry.path

/-- Removes what is in a directory, and then the directory if its path still leads there. -/
def removeDirectoryAt (path : String) : IO Unit := do
  let place ← IO.FS.realPath path
  for entry in ← place.readDir do removeEntry entry
  match ← (IO.FS.removeDir path).toBaseIO with
  | .ok _ => return
  | .error e => if faultOf e != .notFound then throw e

/-- The current directory; the root if there is none any more. -/
def currentDirectory : IO Text := do
  match ← IO.currentDir.toBaseIO with
  | .ok directory => return directory.toString.toList
  | .error _ => return ['/']

instance : Host IO where
  makeDirectory path := attempt path fun p => IO.FS.createDir p
  isDirectory path := (directoryAt (String.ofList path)).root.isDir
  entries path := attempt path entriesAt
  removeDirectory path := attempt path removeDirectoryAt
  removeFile path := attempt path fun p => IO.FS.removeFile p
  writeFile path content := attempt path fun p => IO.FS.writeBinFile p ⟨content.toArray⟩
  readFile path := attempt path fun p => return (← IO.FS.readBinFile p).toList
  workingDirectory := currentDirectory
  environment name := return (← IO.getEnv (String.ofList name)).map String.toList

end QueryValidator.LocalHost
