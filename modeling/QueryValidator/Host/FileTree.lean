import QueryValidator.Host.Disk

/-!
# File trees

The files of a machine as a value: a directory holds its entries, and the root is a directory.
Paths are resolved as a Unix kernel does, links included: `walk` goes down the tree and keeps the
way back, so that a step costs no more than looking up a name.  `Machine` adds the current directory
and the variables of the environment, and is a `Host`.
-/

namespace QueryValidator

inductive Node where
  | file (content : List UInt8)
  | link (target : Text)
  /-- Names are distinct, and a new entry is the last. -/
  | directory (entries : List (Text × Node))
deriving Repr

namespace Node

def isDirectory : Node → Bool
  | .directory _ => true
  | _ => false

/-- Changes the entry `name`; `none` stands for an entry that is not there. -/
def alterEntry (name : Text) (change : Option Node → Option Node) :
    List (Text × Node) → List (Text × Node)
  | [] => (change none).toList.map (name, ·)
  | (key, node) :: entries =>
    if key = name then (change (some node)).toList.map (name, ·) ++ entries
    else (key, node) :: alterEntry name change entries

/-- Changes what is at `place`, given by the names on the way down.  Where the way is blocked,
nothing changes. -/
def alter (change : Option Node → Option Node) : (place : List Text) → Option Node → Option Node
  | [], node => change node
  | name :: place, some (.directory entries) =>
    some (.directory (alterEntry name (alter change place) entries))
  | _ :: _, node => node

/-- What is at `place`. -/
def at? : (place : List Text) → Node → Option Node
  | [], node => some node
  | name :: place, .directory entries => (entries.lookup name).bind (at? place)
  | _ :: _, _ => none

mutual

/-- Everything below a directory with the names from there on, a directory before its entries and
names in the order of their code points. -/
def descendants : Node → List (List Text × Node)
  | .directory entries => ((branches entries).mergeSort fun a b => a.1 ≤ b.1).flatMap Prod.snd
  | _ => []

def branches : List (Text × Node) → List (Text × List (List Text × Node))
  | [] => []
  | e :: es => branch e :: branches es

/-- An entry with everything below it. -/
def branch : Text × Node → Text × List (List Text × Node)
  | (name, node) =>
    (name, ([name], node) :: (descendants node).map fun (names, inner) => (name :: names, inner))

end

end Node

/-- A tree is given by what is in its root. -/
structure FileTree where
  entries : List (Text × Node)
deriving Repr

namespace FileTree

def node? (t : FileTree) (place : List Text) : Option Node :=
  (Node.directory t.entries).at? place

/-- Changes what is at `place`; the root stays a directory. -/
def alter (t : FileTree) (place : List Text) (change : Option Node → Option Node) : FileTree :=
  match Node.alter change place (some (.directory t.entries)) with
  | some (.directory entries) => ⟨entries⟩
  | _ => t

/-- Puts `node` at `place`, in the place of what was there. -/
def put (t : FileTree) (place : List Text) (node : Node) : FileTree :=
  t.alter place fun _ => some node

/-- Takes away what is at `place` and everything below it. -/
def remove (t : FileTree) (place : List Text) : FileTree :=
  t.alter place fun _ => none

/-- Takes away everything below `place`. -/
def clear (t : FileTree) (place : List Text) : FileTree :=
  t.alter place fun node => node.map fun _ => .directory []

/-- A directory and the way up from it. -/
inductive Trail where
  | root (entries : List (Text × Node))
  | inside (name : Text) (entries : List (Text × Node)) (above : Trail)
  /-- The directory is gone, and only the way up is left. -/
  | gone (name : Text) (above : Trail)

namespace Trail

/-- What is in the directory. -/
def entries? : Trail → Option (List (Text × Node))
  | .root entries => some entries
  | .inside _ entries _ => some entries
  | .gone _ _ => none

/-- The directory above; the root is above itself. -/
def above : Trail → Trail
  | .root entries => .root entries
  | .inside _ _ above => above
  | .gone _ above => above

/-- The names from the directory up to the root. -/
def names : Trail → List Text
  | .root _ => []
  | .inside name _ above => name :: above.names
  | .gone name above => name :: above.names

def place (d : Trail) : List Text :=
  d.names.reverse

/-- One name down. -/
def enter (d : Trail) (name : Text) : Trail :=
  match d.entries?.bind fun entries => entries.lookup name with
  | some (.directory entries) => .inside name entries d
  | _ => .gone name d

end Trail

/-- The way to the directory `place`. -/
def trail (t : FileTree) (place : List Text) : Trail :=
  place.foldl Trail.enter (.root t.entries)

/-! ### Resolution of paths -/

/-- Where a path leads. -/
inductive Target where
  | node (place : List Text) (node : Node)
  /-- Nothing is there, but its directory is. -/
  | vacant (place : List Text)
deriving Repr

/-- A path as the kernel reads it. -/
structure Route where
  isAbsolute : Bool
  /-- The parts between slashes, empty ones left out. -/
  parts : List Text
  /-- The path ends with a slash, so that it can only be a directory. -/
  wantsDirectory : Bool
deriving DecidableEq, Repr

def Route.ofText (p : Text) : Route where
  isAbsolute := Path.isAbsolute p
  parts := (Text.splitAt '/' p).filter fun part => !part.isEmpty
  wantsDirectory := p.getLast? == some '/'

/-- The longest name, in bytes. -/
def maxName : Nat := 255

/-- The longest path, in bytes. -/
def maxPath : Nat := 4095

/-- The most links that are followed on the way. -/
def maxLinks : Nat := 40

/-- What the end of a path is resolved for. -/
inductive Purpose where
  /-- What is there, a link followed. -/
  | content
  /-- The entry itself: a link is followed only if the path ends with a slash. -/
  | entry
  /-- A file to write, made if it is not there. -/
  | file
  /-- A new entry: a link in its place is in the way. -/
  | newEntry
deriving DecidableEq, Repr

/-- A link at the end is followed; `slash` says that the path ends with one. -/
def Purpose.follows (purpose : Purpose) (slash : Bool) : Bool :=
  match purpose with
  | .content | .file => true
  | .entry => slash
  | .newEntry => false

/-- Goes from the directory `here` along `parts`, and on with `follow` where a link is followed.  If
`slash`, the path, or the target of a link that it ends in, ends with a slash: then it leads to no
file, and to none that could be made.  From a directory that is gone, the way leads up only. -/
def walkParts (t : FileTree) (purpose : Purpose)
    (follow : Bool → Trail → List Text → Except DiskFault Target) (slash : Bool) (here : Trail) :
    List Text → Except DiskFault Target
  | [] => .ok (.node here.place (.directory (here.entries?.getD [])))
  | part :: rest =>
    if part = ['.'] then walkParts t purpose follow slash here rest
    else if part = ['.', '.'] then walkParts t purpose follow slash here.above rest
    else if rest.isEmpty ∧ slash ∧ purpose = .file then .error .isDirectory
    else match here.entries? with
    | none => .error .notFound
    | some entries =>
      if Text.utf8Size part > maxName then .error .nameTooLong
      else match entries.lookup part with
      | none =>
        if rest.isEmpty then .ok (.vacant (here.place ++ [part])) else .error .notFound
      | some (.directory inside) =>
        walkParts t purpose follow slash (.inside part inside here) rest
      | some (.file content) =>
        if rest.isEmpty ∧ (!slash ∨ purpose = .newEntry) then
          .ok (.node (here.place ++ [part]) (.file content))
        else .error .notDirectory
      | some (.link target) =>
        if rest.isEmpty ∧ !purpose.follows slash then
          .ok (.node (here.place ++ [part]) (.link target))
        else
          let route := Route.ofText target
          follow (slash || (rest.isEmpty && route.wantsDirectory))
            (if route.isAbsolute then .root t.entries else here) (route.parts ++ rest)

/-- Goes on where a link is followed, as long as `links` allows. -/
def follow (t : FileTree) (purpose : Purpose) :
    (links : Nat) → (slash : Bool) → (here : Trail) → List Text → Except DiskFault Target
  | 0 => fun _ _ _ => .error .tooManyLinks
  | links + 1 => walkParts t purpose (follow t purpose links)

/-- Goes from the directory `here` along `parts` and follows at most `links` links. -/
def walk (t : FileTree) (purpose : Purpose) (links : Nat) (slash : Bool) (here : Trail)
    (parts : List Text) : Except DiskFault Target :=
  walkParts t purpose (follow t purpose links) slash here parts

/-- Where the path leads, seen from the directory `here`. -/
def resolve (t : FileTree) (purpose : Purpose) (here : List Text) (path : Text) :
    Except DiskFault Target :=
  let route := Route.ofText path
  if path.contains (Char.ofNat 0) then .error .nulInName
  else if path.isEmpty then .error .notFound
  else if Text.utf8Size path > maxPath then .error .nameTooLong
  else
    walk t purpose maxLinks route.wantsDirectory
      (if route.isAbsolute then .root t.entries else t.trail here) route.parts

/-! ### Operations -/

/-- Makes a directory where nothing is. -/
def makeDirectory (t : FileTree) (here : List Text) (path : Text) : Except DiskFault FileTree :=
  match t.resolve .newEntry here path with
  | .error e => .error e
  | .ok (.node _ _) => .error .exists
  | .ok (.vacant place) => .ok (t.put place (.directory []))

def isDirectory (t : FileTree) (here : List Text) (path : Text) : Bool :=
  match t.resolve .content here path with
  | .ok (.node _ (.directory _)) => true
  | _ => false

def entriesOf (t : FileTree) (here : List Text) (path : Text) :
    Except DiskFault (List DirectoryEntry) :=
  match t.resolve .content here path with
  | .error e => .error e
  | .ok (.vacant _) => .error .notFound
  | .ok (.node _ (.directory entries)) =>
    .ok (entries.map fun (name, node) => ⟨name, node.isDirectory⟩)
  | .ok (.node _ _) => .error .notDirectory

/-- Takes away what is in a directory and then the directory.  Its path is followed again for that:
if the path leads through something that was in it, the emptied directory stays. -/
def removeDirectory (t : FileTree) (here : List Text) (path : Text) :
    Except DiskFault FileTree :=
  match t.resolve .entry here path with
  | .error e => .error e
  | .ok (.vacant _) => .error .notFound
  | .ok (.node place (.directory _)) =>
    let emptied := t.clear place
    match emptied.resolve .entry here path with
    | .ok (.node _ (.directory _)) => .ok (emptied.remove place)
    | _ => .ok emptied
  | .ok (.node _ _) => .error .notDirectory

def removeFile (t : FileTree) (here : List Text) (path : Text) : Except DiskFault FileTree :=
  match t.resolve .entry here path with
  | .error e => .error e
  | .ok (.vacant _) => .error .notFound
  | .ok (.node _ (.directory _)) => .error .isDirectory
  | .ok (.node place _) => .ok (t.remove place)

def writeFile (t : FileTree) (here : List Text) (path : Text) (content : List UInt8) :
    Except DiskFault FileTree :=
  match t.resolve .file here path with
  | .error e => .error e
  | .ok (.node _ (.directory _)) => .error .isDirectory
  | .ok (.node place _) => .ok (t.put place (.file content))
  | .ok (.vacant place) => .ok (t.put place (.file content))

def readFile (t : FileTree) (here : List Text) (path : Text) :
    Except DiskFault (List UInt8) :=
  match t.resolve .content here path with
  | .error e => .error e
  | .ok (.vacant _) => .error .notFound
  | .ok (.node _ (.file content)) => .ok content
  | .ok (.node _ _) => .error .isDirectory

/-- Puts a link to `target` at a path where nothing is. -/
def makeLink (t : FileTree) (here : List Text) (path target : Text) : Except DiskFault FileTree :=
  match t.resolve .newEntry here path with
  | .error e => .error e
  | .ok (.node _ _) => .error .exists
  | .ok (.vacant place) =>
    if (Route.ofText path).wantsDirectory then .error .notFound
    else .ok (t.put place (.link target))

/-- Everything below the directory `place`, with the names from there on, a directory before its
entries. -/
def listing (t : FileTree) (place : List Text) : List (List Text × Node) :=
  ((t.node? place).map Node.descendants).getD []

end FileTree

/-! ### The machine -/

structure Machine where
  tree : FileTree
  workingDirectory : List Text
  environment : List (Text × Text)
deriving Repr

namespace Machine

/-- The names to `place`, those of directories that are gone made empty.  No path has an empty name
in it, so the way up from there stays open and none leads back. -/
def standing (t : FileTree) (above place : List Text) : List Text :=
  match place with
  | [] => above
  | name :: names =>
    let next := above ++ [name]
    if (t.node? next).isSome then standing t next names
    else above ++ place.map fun _ => []

/-- Runs an operation that changes the tree, or fails and leaves it as it is. -/
def change (f : FileTree → List Text → Except DiskFault FileTree) :
    StateM Machine (Except DiskFault Unit) := fun w =>
  match f w.tree w.workingDirectory with
  | .ok tree => (.ok (), { w with tree, workingDirectory := standing tree [] w.workingDirectory })
  | .error e => (.error e, w)

/-- Runs an operation that only looks. -/
def look {α : Type} (f : FileTree → List Text → α) : StateM Machine α := fun w =>
  (f w.tree w.workingDirectory, w)

/-- The path of the current directory; the root if it is gone. -/
def workingText (w : Machine) : Text :=
  if (w.tree.node? w.workingDirectory).isNone then ['/']
  else '/' :: Text.joinWith ['/'] w.workingDirectory

instance : Host (StateM Machine) where
  makeDirectory path := change fun t here => t.makeDirectory here path
  isDirectory path := look fun t here => t.isDirectory here path
  entries path := look fun t here => t.entriesOf here path
  removeDirectory path := change fun t here => t.removeDirectory here path
  removeFile path := change fun t here => t.removeFile here path
  writeFile path content := change fun t here => t.writeFile here path content
  readFile path := look fun t here => t.readFile here path
  workingDirectory := fun w => (w.workingText, w)
  environment name := fun w => (w.environment.lookup name, w)

end Machine

end QueryValidator
