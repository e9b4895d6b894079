import QueryValidator.Proofs.Json.SingleLine
import QueryValidator.Service.Session

/-!
# Lines of responses

The line of a response is the text of one JSON object, which has the id of the request and one of
the members `result` and `error`; an error has the code that tells why there is no result.
-/

namespace QueryValidator

/-- The object of an error. -/
def errorObject (code : Nat) (message : Text) : Json :=
  .object [("code", .number (.negative code)), ("message", .string message)]

/-- The member that holds the answer. -/
def Answer.member : Answer → Text × Json
  | .result v => ("result", v)
  | .unknownMethod method => ("error", errorObject 32601 ("unknown method `" ++ method ++ "`"))
  | .invalidOptions f => ("error", errorObject 32602 f.message)
  | .failed message => ("error", errorObject 32000 message)

namespace Response

/-- The object that the line of the response denotes. -/
def json (r : Response) : Json :=
  .object [("jsonrpc", .string "2.0"), ("id", r.id), r.answer.member]

theorem error_eq_memberText (code : Nat) (message : Text) :
    error code message = Json.memberText ("error", errorObject code message) := by
  have hstart : "\"error\":\x7b\"code\":-".toList =
      Text.quoted "error" ++ ':' :: '{' :: (Text.quoted "code" ++ [':', '-']) := by decide
  have hmessage : ",\"message\":".toList = ',' :: (Text.quoted "message" ++ [':']) := by decide
  unfold error
  simp only [hstart, hmessage, errorObject, Json.memberText, Json.text, Json.memberTexts,
    JsonNumber.text, Text.joinWith_cons_cons, Text.joinWith_singleton, List.append_assoc,
    List.cons_append, List.nil_append]
  rfl

theorem answerText_eq_memberText (a : Answer) : answerText a = Json.memberText a.member := by
  cases a with
  | result v => rfl
  | unknownMethod method => exact error_eq_memberText _ _
  | invalidOptions f => exact error_eq_memberText _ _
  | failed message => exact error_eq_memberText _ _

theorem text_eq_json_text (r : Response) : r.text = r.json.text := by
  have hstart : "\x7b\"jsonrpc\":\"2.0\",\"id\":".toList =
      '{' :: (Text.quoted "jsonrpc" ++ ':' :: (Text.quoted "2.0" ++ ',' ::
        (Text.quoted "id" ++ [':']))) := by decide
  unfold text json
  simp only [hstart, answerText_eq_memberText, Json.text, Json.memberTexts, Json.memberText,
    Text.joinWith_cons_cons, Text.joinWith_singleton, List.append_assoc, List.cons_append,
    List.nil_append]
  rfl

/-! ### Members -/

theorem member?_id (r : Response) : r.json.member? "id" = some r.id := rfl

/-- A response has a result or an error, and never both. -/
theorem isSome_result_eq_not_error (r : Response) :
    (r.json.member? "result").isSome = !(r.json.member? "error").isSome := by
  obtain ⟨id, answer⟩ := r
  cases answer <;> rfl

/-- The code of the error in the response, if it has one. -/
def errorCode? (r : Response) : Option Json :=
  (r.json.member? "error").bind (Json.member? "code")

theorem errorCode?_unknownMethod (id : Json) (method : Text) :
    (mk id (.unknownMethod method)).errorCode? = some (.number (.negative 32601)) := rfl

theorem errorCode?_invalidOptions (id : Json) (f : Json.Fault) :
    (mk id (.invalidOptions f)).errorCode? = some (.number (.negative 32602)) := rfl

theorem newline_not_mem_text (r : Response) : '\n' ∉ r.text := by
  rw [text_eq_json_text]
  exact r.json.newline_not_mem_text

/-! ### Output -/

theorem written_append (rs rs' : List Response) : written (rs ++ rs') = written rs ++ written rs' :=
  List.flatMap_append

/-- The lines of what is written are those of the responses, and the last of them has its end. -/
theorem splitAt_written (rs : List Response) :
    Text.splitAt '\n' (written rs) = rs.map text ++ [[]] := by
  have hlines : ∀ line ∈ rs.map text, '\n' ∉ line :=
    List.forall_mem_map.mpr fun r _ => r.newline_not_mem_text
  have hwritten : written rs = (rs.map text).flatMap (· ++ ['\n']) ++ [] := by
    rw [List.append_nil, List.flatMap_map]
    rfl
  rw [hwritten, Text.splitAt_lines hlines]
  rfl

end Response

end QueryValidator
