import QueryValidator.Service.Options
import QueryValidator.Text.Utf8

/-!
# The request loop

A client sends one JSON request on a line and gets one JSON answer on a line.  Lines that are blank
or no requests are passed over.  A line that is not UTF-8 ends the session.  The loop serves any
`Generator`.
-/

namespace QueryValidator

open Json

/-- What the loop knows of a generator: what it says about itself, and what it does with the options
of a request.  A failure is told by its message. -/
structure Generator (m : Type → Type) where
  name : Text
  /-- Where it writes if it is not told a place. -/
  defaultOutput : Text
  /-- The generators that have to run before it. -/
  requires : List Text
  generate : Options → m (Except Text Unit)

structure Request where
  id : Json
  method : Text
  params : Json

namespace Request

def shape : Shape Request :=
  .record "Request"
    (.required "id" .value <| .required "method" .text <| .default "params" .value .null .nil)
    fun (id, method, params, _) => ⟨id, method, params⟩

/-- The request on a line, none if the line is passed over. -/
def ofLine? (line : Text) : Option Request :=
  if Text.isBlank line then none else (shape.parse line).toOption

end Request

/-- What a request is answered with. -/
inductive Answer where
  | result (v : Json)
  | unknownMethod (method : Text)
  | invalidOptions (f : Fault)
  | failed (message : Text)

structure Response where
  id : Json
  answer : Answer

namespace Response

def error (code : Nat) (message : Text) : Text :=
  "\"error\":\x7b\"code\":-" ++ Text.ofNat code ++ ",\"message\":" ++ message.quoted ++ "\x7d"

def answerText : Answer → Text
  | .result v => "\"result\":" ++ v.text
  | .unknownMethod method => error 32601 ("unknown method `" ++ method ++ "`")
  | .invalidOptions f => error 32602 f.message
  | .failed message => error 32000 message

/-- The line of the response, without its end. -/
def text (r : Response) : Text :=
  "\x7b\"jsonrpc\":\"2.0\",\"id\":" ++ r.id.text ++ "," ++ answerText r.answer ++ "\x7d"

/-- What is written for some responses: a line for each. -/
def written (rs : List Response) : Text :=
  rs.flatMap fun r => r.text ++ ['\n']

end Response

namespace Session

/-- The lines of some bytes with their ends; what follows the last end is a line too. -/
def linesOf : List UInt8 → List (List UInt8)
  | [] => []
  | b :: r =>
    if b = 10 then [b] :: linesOf r
    else match linesOf r with
      | [] => [[b]]
      | l :: ls => (b :: l) :: ls

/-- A line without its end, which is a line feed or a carriage return and a line feed. -/
def dropLineEnd (line : List UInt8) : List UInt8 :=
  match line.reverse with
  | 10 :: 13 :: r => r.reverse
  | 10 :: r => r.reverse
  | _ => line

/-- The line as text, without its end. -/
def readLine (line : List UInt8) : Except Utf8.Fault Text :=
  Utf8.decode (dropLineEnd line)

end Session

namespace Generator

variable {m : Type → Type} [Monad m]

/-- What the generator says about itself. -/
def manifest (g : Generator m) : Json :=
  .ofMembers [("manifest", .ofMembers [
    ("prettyName", .string g.name),
    ("defaultOutput", .string g.defaultOutput),
    ("requiresGenerators", .array (g.requires.map .string))])]

def answer (g : Generator m) (r : Request) : m Answer := do
  if r.method = "getManifest" then return .result g.manifest
  else if r.method = "generate" then
    match Options.ofJson r.params with
    | .error f => return .invalidOptions f
    | .ok o =>
      match ← g.generate o with
      | .error message => return .failed message
      | .ok _ => return .result .null
  else return .unknownMethod r.method

/-- The response to the request on a line, if there is one. -/
def respond (g : Generator m) (line : Text) : m (Option Response) := do
  match Request.ofLine? line with
  | none => return none
  | some r => return some ⟨r.id, ← g.answer r⟩

/-- Answers one line after the other: the responses, and the fault that ended the session, if a
fault did. -/
def serveLines (g : Generator m) : List (List UInt8) → m (List Response × Option Utf8.Fault)
  | [] => return ([], none)
  | l :: ls => do
    match Session.readLine l with
    | .error f => return ([], some f)
    | .ok line =>
      let response ← g.respond line
      let (responses, fault) ← g.serveLines ls
      return (response.toList ++ responses, fault)

/-- A whole session: all input, and the responses to it. -/
def serve (g : Generator m) (input : List UInt8) : m (List Response × Option Utf8.Fault) :=
  g.serveLines (Session.linesOf input)

end Generator

end QueryValidator
