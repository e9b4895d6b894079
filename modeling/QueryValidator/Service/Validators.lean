import QueryValidator.Run.Output
import QueryValidator.Service.Session

/-!
# Sessions of this generator

The generator of validators as the request loop serves it: it looks up the variables that the
options speak of and carries the run out on the machine.
-/

namespace QueryValidator.Session

variable {m : Type → Type} [Monad m] [Host m]

/-- Looks up the variables of the environment with the given names. -/
def lookUp : List Text → m (List (Text × Text))
  | [] => return []
  | name :: names => do
    let value ← Host.environment name
    let found ← lookUp names
    return match value with
      | some v => (name, v) :: found
      | none => found

/-- Carries out a request to generate. -/
def generate (o : Options) : m (Except Failure Unit) := do
  let found ← lookUp o.variableNames
  let env := fun name => found.lookup name
  Output.run o.document (o.settings env) (o.output env)

/-- The generator of validators. -/
def validators : Generator m where
  name := "Prisma Zod Generator"
  defaultOutput := Options.defaultOutput
  requires := [clientGenerator]
  generate o := return (← generate o).mapError Failure.message

def serveLines (lines : List (List UInt8)) : m (List Response × Option Utf8.Fault) :=
  validators.serveLines lines

/-- A whole session of this generator: all input, and the responses to it. -/
def serve (input : List UInt8) : m (List Response × Option Utf8.Fault) :=
  validators.serve input

end QueryValidator.Session
