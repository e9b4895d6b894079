import QueryValidator.Json.Shape

/-!
# Settings

What a user chooses for a run: the data source, preview features, whether operations offer `select`
and `include`, and where the client is generated.  Settings come from a JSON text, from the string
valued block of a generator, or from the command line.
-/

namespace QueryValidator

open Json

/-- The kind of data source. -/
inductive Provider where
  | postgresql
  | mysql
  | sqlite
  | sqlserver
  | mongodb
  | cockroachdb
  | other (tag : Text)
deriving DecidableEq, Repr

namespace Provider

def ofTag (tag : Text) : Provider :=
  if tag = "postgresql" ∨ tag = "postgres" then .postgresql
  else if tag = "mysql" then .mysql
  else if tag = "sqlite" then .sqlite
  else if tag = "sqlserver" then .sqlserver
  else if tag = "mongodb" then .mongodb
  else if tag = "cockroachdb" then .cockroachdb
  else .other tag

def tag : Provider → Text
  | .postgresql => "postgresql"
  | .mysql => "mysql"
  | .sqlite => "sqlite"
  | .sqlserver => "sqlserver"
  | .mongodb => "mongodb"
  | .cockroachdb => "cockroachdb"
  | .other tag => tag

/-- `createMany` takes `skipDuplicates`. -/
def skipsDuplicates : Provider → Bool
  | .mongodb => false
  | .sqlserver => false
  | _ => true

/-- Full text search is available as a preview feature. -/
def searchesText : Provider → Bool
  | .postgresql => true
  | .mysql => true
  | _ => false

end Provider

structure Settings where
  provider : Provider
  /-- Sorted and without repetitions. -/
  previewFeatures : List Text
  select : Bool
  includes : Bool
  /-- The directory of the client, if it is not the installed package. -/
  clientOutput : Option Text
deriving DecidableEq, Repr

namespace Settings

def initial : Settings := ⟨.postgresql, [], false, false, none⟩

def shape : Shape Settings :=
  .record "GeneratorSettings"
    (.default "provider" .text "postgresql" <| .default "previewFeatures" (.list .text) [] <|
      .default "isGenerateSelect" .flag false <| .default "isGenerateInclude" .flag false <|
      .default "prismaClientOutput" (.option .path) none .nil)
    fun (provider, features, select, includes, clientOutput, _) =>
      ⟨.ofTag provider, Text.sortedSet features, select, includes, clientOutput⟩

def ofText (t : Text) : Except Fault Settings :=
  shape.parse t

/-- One entry of a generator's block; keys that mean nothing here are passed over. -/
def applyEntry (s : Settings) : Text × Text → Settings
  | (key, value) =>
    if key = "isGenerateSelect" then { s with select := value == ("true" : Text) }
    else if key = "isGenerateInclude" then { s with includes := value == ("true" : Text) }
    else s

/-- The entries of a generator's block, in order. -/
def applyBlock (s : Settings) (block : List (Text × Text)) : Settings :=
  block.foldl applyEntry s

end Settings

end QueryValidator
