import QueryValidator.Host.Path
import QueryValidator.Name.Operation
import QueryValidator.Run.Settings

/-!
# Configuration of a run

What every step of a run sees of the settings and the document.  The module specifier of a client
with a place of its own is the way from the directory of the object modules to that place.
-/

namespace QueryValidator

/-- The client as an installed package. -/
def installedClient : Text := "@prisma/client"

def fullTextSearch : Text := "fullTextSearch"

structure Config where
  provider : Provider
  previewFeatures : List Text
  select : Bool
  includes : Bool
  clientImport : Text
  enumNames : List Text
  /-- Input types of raw operations with the types of their arguments. -/
  rawOperations : List (Text × Text)
deriving DecidableEq, Repr

/-- The directory of the object modules below `output`. -/
def objectDirectory (output : Text) : Text :=
  Path.join (Path.join output "schemas") "objects"

/-- The module specifier of the client, as seen from the object modules. -/
def clientSpecifier (workingDir output : Text) (client : Option Text) : Text :=
  match client with
  | none => installedClient
  | some c =>
    if c = installedClient then installedClient
    else Path.relativeText (Path.absoluteParts workingDir (objectDirectory output))
      (Path.absoluteParts workingDir c)

namespace Config

def initial : Config := ⟨.postgresql, [], false, false, installedClient, [], []⟩

/-- The configuration of a run in `workingDir` that writes to `output`. -/
def ofRun (s : Settings) (d : Document) (workingDir output : Text) : Config where
  provider := s.provider
  previewFeatures := s.previewFeatures
  select := s.select
  includes := s.includes
  clientImport := clientSpecifier workingDir output s.clientOutput
  enumNames := d.enumTypes.map EnumType.name
  rawOperations := QueryValidator.rawOperations d.mappings

def searchesText (c : Config) : Bool :=
  c.provider.searchesText && c.previewFeatures.contains fullTextSearch

def isEnum (c : Config) (name : Text) : Bool :=
  c.enumNames.contains name

end Config

end QueryValidator
