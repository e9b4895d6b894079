import QueryValidator.Document.Shape
import QueryValidator.Run.Settings

/-!
# Options of a generate request

What a client sends with a request to generate: this generator's block, the blocks of the other
generators, the document and the data sources.  `Options.settings` are the settings they amount to.
-/

namespace QueryValidator

open Json

/-- A value that is given or taken from a variable of the environment. -/
structure EnvValue where
  value : Option Text
  fromVariable : Option Text
deriving DecidableEq, Repr

namespace EnvValue

def shape : Shape EnvValue :=
  .record "EnvValue" (.optional "value" .text <| .optional "fromEnvVar" .text .nil)
    fun (value, fromVariable, _) => ⟨value, fromVariable⟩

/-- The value itself comes first. -/
def resolve (env : Text → Option Text) (v : EnvValue) : Option Text :=
  match v.value with
  | some t => some t
  | none => v.fromVariable.bind env

end EnvValue

structure GeneratorBlock where
  name : Text
  provider : EnvValue
  output : Option EnvValue
  config : Text.Table Json
  previewFeatures : List Text
  isCustomOutput : Bool

namespace GeneratorBlock

def shape : Shape GeneratorBlock :=
  .record "GeneratorBlock"
    (.required "name" .text <| .required "provider" EnvValue.shape <|
      .optional "output" EnvValue.shape <| .default "config" .table .empty <|
      .default "previewFeatures" (.list .text) [] <| .default "isCustomOutput" .flag false .nil)
    fun (name, provider, output, config, previewFeatures, isCustomOutput, _) =>
      ⟨name, provider, output, config, previewFeatures, isCustomOutput⟩

/-- The entries whose value is a text. -/
def textEntries (entries : List (Text × Json)) : List (Text × Text) :=
  entries.filterMap fun (key, v) => match v with
    | .string t => some (key, t)
    | _ => none

def outputPath (env : Text → Option Text) (b : GeneratorBlock) : Option Text :=
  b.output.bind (EnvValue.resolve env)

end GeneratorBlock

structure Datasource where
  provider : Option Text
  activeProvider : Option Text
deriving DecidableEq, Repr

namespace Datasource

def shape : Shape Datasource :=
  .record "Datasource" (.optional "provider" .text <| .optional "activeProvider" .text .nil)
    fun (provider, activeProvider, _) => ⟨provider, activeProvider⟩

/-- The active provider comes before the declared one. -/
def effective (d : Datasource) : Option Text :=
  d.activeProvider <|> d.provider

end Datasource

structure Options where
  generator : GeneratorBlock
  others : List GeneratorBlock
  document : Document
  datasources : List Datasource

/-- The generator of the client. -/
def clientGenerator : Text := "prisma-client-js"

namespace Options

def shape : Shape Options :=
  .record "GeneratorOptions"
    (.required "generator" GeneratorBlock.shape <|
      .default "otherGenerators" (.list GeneratorBlock.shape) [] <|
      .required "dmmf" Document.shape <| .default "datasources" (.list Datasource.shape) [] .nil)
    fun (generator, others, document, datasources, _) =>
      ⟨generator, others, document, datasources⟩

def ofJson (v : Json) : Except Fault Options :=
  shape.ofJson v

/-- The first block of the client's generator. -/
def client? (o : Options) (env : Text → Option Text) : Option GeneratorBlock :=
  o.others.find? fun b => b.provider.resolve env == some clientGenerator

/-- The provider of the first data source. -/
def provider (o : Options) : Provider :=
  match o.datasources.head?.bind Datasource.effective with
  | some tag => .ofTag tag
  | none => Settings.initial.provider

/-- The settings that the options amount to: the provider of the first data source, the preview
features and the place of the client, and the choices of this generator's own block, whose entries
are gone through in the given order. -/
def settingsIn (o : Options) (env : Text → Option Text) (entries : List (Text × Json)) : Settings :=
  let client := o.client? env
  let base : Settings := { Settings.initial with
    provider := o.provider
    previewFeatures := match client with
      | some b => Text.sortedSet b.previewFeatures
      | none => []
    clientOutput := match client with
      | some b => if b.isCustomOutput then b.outputPath env else none
      | none => none }
  base.applyBlock (GeneratorBlock.textEntries entries)

def settings (o : Options) (env : Text → Option Text) : Settings :=
  o.settingsIn env o.generator.config.entries

/-- Where a generator writes that is not told a place. -/
def defaultOutput : Text := "./generated"

def output (o : Options) (env : Text → Option Text) : Text :=
  (o.generator.outputPath env).getD defaultOutput

/-- The variables of the environment that the options speak of. -/
def variableNames (o : Options) : List Text :=
  (o.generator :: o.others).flatMap fun b =>
    b.provider.fromVariable.toList ++ (b.output.bind EnvValue.fromVariable).toList

end Options

end QueryValidator
