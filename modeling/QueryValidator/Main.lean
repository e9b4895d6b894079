import QueryValidator.CommandLine
import QueryValidator.Host.Local

/-!
# The program

Reads the arguments and carries the command out on this machine.  A session answers each request
when its line has been read.
-/

namespace QueryValidator.Program

/-- Reads one line of bytes with its end, the last one perhaps without; empty at the end. -/
partial def readLineFrom (input : IO.FS.Stream) (line : ByteArray) : IO ByteArray := do
  let next ← input.read 1
  if next.isEmpty then return line
  let line := line ++ next
  if next.toList = [10] then return line
  readLineFrom input line

/-- Answers the lines of `input` on `output` until the input ends or a line is faulty. -/
partial def serveStream (input output : IO.FS.Stream) : IO (Option Utf8.Fault) := do
  let line ← readLineFrom input .empty
  if line.isEmpty then return none
  let (responses, fault) ← Session.serveLines [line.toList]
  for r in responses do
    output.putStrLn (String.ofList r.text)
    output.flush
  match fault with
  | some f => return some f
  | none => serveStream input output

def finish (o : Outcome) : IO UInt32 := do
  IO.print (String.ofList o.stdout)
  IO.eprint (String.ofList o.stderr)
  return o.code.toUInt32

/-- Carries out what the arguments ask for and gives the exit code. -/
def run (args : List String) : IO UInt32 := do
  match Command.ofArguments? (args.map String.toList) with
  | some .serve =>
    let fault ← serveStream (← IO.getStdin) (← IO.getStderr)
    finish (Command.sessionEnd fault)
  | some c => finish (← c.run [])
  | none => finish ⟨2, [], Command.usageText⟩

end QueryValidator.Program

def main (args : List String) : IO UInt32 :=
  QueryValidator.Program.run args
