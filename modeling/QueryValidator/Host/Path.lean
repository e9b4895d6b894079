import QueryValidator.Text

/-!
# Paths

Paths are texts with `/` between their parts.  `join` appends a path, an absolute one replacing all
before it; `parent?` takes the last part off; `components` names the parts with repeated slashes and
inner `.` left out; `normalParts` is the place a path stands for, as the names from the root on,
`..` being resolved by taking off the name before it.
-/

namespace QueryValidator.Path

/-- A part of a path. -/
inductive Component where
  | root
  /-- A `.` in front. -/
  | here
  | up
  | name (t : Text)
deriving DecidableEq, Repr

def isAbsolute (p : Text) : Bool :=
  p.head? == some '/'

/-- Appends `q` to `p`. -/
def join (p q : Text) : Text :=
  if isAbsolute q then q
  else if p.isEmpty || p.getLast? == some '/' then p ++ q
  else p ++ '/' :: q

/-- The part stands for nothing: it is empty or `.`. -/
def isVoid (part : Text) : Bool :=
  part == [] || part == ['.']

def componentOf (part : Text) : Component :=
  if part = ['.', '.'] then .up else .name part

def components (p : Text) : List Component :=
  let parts := Text.splitAt '/' p
  let front : List Component :=
    match parts with
    | ['.'] :: _ => [.here]
    | [] :: _ :: _ => [.root]
    | _ => []
  front ++ (parts.filter fun part => !isVoid part).map componentOf

def Component.text : Component → Text
  | .root => ['/']
  | .here => ['.']
  | .up => ['.', '.']
  | .name t => t

/-- Takes parts that stand for nothing off the end. -/
def trimVoid (parts : List Text) : List Text :=
  (parts.reverse.dropWhile isVoid).reverse

/-- The path without its last component; none for the root and for the empty path. -/
def parent? (p : Text) : Option Text :=
  let (front, body) := match p with
    | '/' :: r => (['/'], r)
    | ['.'] => (['.'], [])
    | '.' :: '/' :: r => (['.'], '/' :: r)
    | _ => ([], p)
  match trimVoid (Text.splitAt '/' body) with
  | [] => if front = ['.'] then some [] else none
  | parts => some (front ++ Text.joinWith ['/'] (trimVoid parts.dropLast))

/-- One component on the way down a place. -/
def descend (place : List Text) : Component → List Text
  | .name t => place ++ [t]
  | .up => place.dropLast
  | _ => place

def normalParts (p : Text) : List Text :=
  (components p).foldl descend []

/-- The place that `p` stands for when `workingDir` is the current directory.  The empty path stands
for no place of its own and gives the root. -/
def absoluteParts (workingDir p : Text) : List Text :=
  if p.isEmpty then []
  else if isAbsolute p then normalParts p
  else (components p).foldl descend (normalParts workingDir)

/-- What remains of two lists after their common beginning. -/
def dropCommon : List Text → List Text → List Text × List Text
  | a :: as, b :: bs => if a = b then dropCommon as bs else (a :: as, b :: bs)
  | as, bs => (as, bs)

/-- The way from the place `origin` to the place `target`, as steps between slashes; a step down is
marked by a leading `./` unless it begins with two dots. -/
def relativeText (origin target : List Text) : Text :=
  let (ups, downs) := dropCommon origin target
  let t := Text.joinWith ['/'] (ups.map (fun _ => ['.', '.']) ++ downs)
  if t.isEmpty then "."
  else if ("..".toList).isPrefixOf t then t
  else "./" ++ t

/-- The name without its extension, the part from the last dot on; a dot in front begins none. -/
def stem (name : Text) : Text :=
  match name.reverse.span (fun c => c != '.') with
  | (_, _ :: before) => if before.isEmpty then name else before.reverse
  | _ => name

end QueryValidator.Path
