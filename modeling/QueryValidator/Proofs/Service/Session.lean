import QueryValidator.Proofs.Service.Response

/-!
# The course of a session

A session answers the requests on its lines in their order, up to the first line that is not UTF-8,
and every answer is one line. The loop is a traversal of the requests (`serve_eq`), so that what is
said of one request holds at its place in every session, whatever stands before and behind it.

Nothing is assumed of a generator but that it acts in a lawful monad: one without effects answers a
request by its options alone, and this generator's effects are those on the machine.
-/

namespace QueryValidator

/-! ### Lines -/

namespace Session

theorem linesOf_eq_nil_iff {x : List UInt8} : linesOf x = [] ↔ x = [] := by
  constructor
  · intro h
    cases x with
    | nil => rfl
    | cons b r =>
      rw [linesOf] at h
      split at h
      · cases h
      · split at h <;> cases h
  · rintro rfl
    rfl

/-- Input that ends with the end of a line is cut apart from what follows it. -/
theorem linesOf_append {x : List UInt8} (hx : ∀ b, x.getLast? = some b → b = 10) (y : List UInt8) :
    linesOf (x ++ y) = linesOf x ++ linesOf y := by
  induction x with
  | nil => rfl
  | cons b r ih =>
    rw [List.cons_append, linesOf, linesOf]
    by_cases hr : r = []
    · subst hr
      have hb : b = 10 := hx b rfl
      rw [if_pos hb, if_pos hb]
      rfl
    · have hlast : ∀ c, r.getLast? = some c → c = 10 := by
        intro c hc
        refine hx c ?_
        rw [List.getLast?_cons_of_ne_nil hr]
        exact hc
      rw [ih hlast]
      split
      · rfl
      · cases hlines : linesOf r with
        | nil => exact absurd (linesOf_eq_nil_iff.mp hlines) hr
        | cons l ls => rfl

/-- The lines before the first that is not UTF-8, and what is wrong with that one. -/
def readLines : List (List UInt8) → List Text × Option Utf8.Fault
  | [] => ([], none)
  | l :: ls =>
    match readLine l with
    | .error f => ([], some f)
    | .ok t => (t :: (readLines ls).1, (readLines ls).2)

/-- The requests of an input, lines that are passed over left out. -/
def requests (input : List UInt8) : List Request :=
  (readLines (linesOf input)).1.filterMap Request.ofLine?

/-- What ends the session before the input does. -/
def fault? (input : List UInt8) : Option Utf8.Fault :=
  (readLines (linesOf input)).2

end Session

/-! ### Answers -/

namespace Generator

open Session

variable {m : Type → Type} [Monad m] (g : Generator m)

/-- The response to a request. -/
def reply (q : Request) : m Response :=
  (Response.mk q.id ·) <$> g.answer q

variable [LawfulMonad m]

theorem serveLines_eq (lines : List (List UInt8)) :
    g.serveLines lines = (fun rs => (rs, (readLines lines).2)) <$>
      ((readLines lines).1.filterMap Request.ofLine?).mapM g.reply := by
  induction lines with
  | nil => simp [serveLines, readLines]
  | cons l ls ih =>
    rw [serveLines, readLines]
    cases hl : readLine l with
    | error f => simp
    | ok t =>
      cases hq : Request.ofLine? t with
      | none => simp [respond, hq, ih]
      | some q => simp [respond, hq, ih, reply]

theorem serve_eq (input : List UInt8) :
    g.serve input = (fun rs => (rs, fault? input)) <$> (requests input).mapM g.reply :=
  g.serveLines_eq (linesOf input)

/-- What is written in a session. -/
def output (input : List UInt8) : m Text :=
  (fun p => Response.written p.1) <$> g.serve input

theorem output_eq (input : List UInt8) :
    g.output input = Response.written <$> (requests input).mapM g.reply := by
  rw [output, serve_eq, Functor.map_map]

end Generator

/-! ### Input in parts -/

namespace Session

theorem readLines_append {before after : List (List UInt8)} (h : (readLines before).2 = none) :
    readLines (before ++ after) =
      ((readLines before).1 ++ (readLines after).1, (readLines after).2) := by
  induction before with
  | nil => rfl
  | cons l ls ih =>
    rw [readLines] at h
    rw [List.cons_append, readLines, readLines]
    cases hl : readLine l with
    | error f =>
      rw [hl] at h
      cases h
    | ok t =>
      rw [hl] at h
      rw [ih h]
      rfl

theorem readLines_fault_eq_none_iff {lines : List (List UInt8)} :
    (readLines lines).2 = none ↔ ∀ l ∈ lines, ∃ t, readLine l = .ok t := by
  induction lines with
  | nil => simp [readLines]
  | cons l ls ih =>
    rw [readLines, List.forall_mem_cons]
    cases readLine l with
    | error f => simp
    | ok t => simp [ih]

theorem requests_append {x : List UInt8} (hx : ∀ b, x.getLast? = some b → b = 10)
    (hfault : fault? x = none) (y : List UInt8) :
    requests (x ++ y) = requests x ++ requests y := by
  rw [requests, linesOf_append hx, readLines_append hfault, List.filterMap_append]
  rfl

end Session

namespace Generator

open Session

variable {m : Type → Type} [Monad m] [LawfulMonad m] (g : Generator m)

theorem output_append {x : List UInt8} (hx : ∀ b, x.getLast? = some b → b = 10)
    (hfault : fault? x = none) (y : List UInt8) :
    g.output (x ++ y) = (· ++ ·) <$> g.output x <*> g.output y := by
  simp [output_eq, requests_append hx hfault, Response.written_append, seq_eq_bind_map]

/-- A line that is not UTF-8 ends the session after the answers to the lines before it. -/
theorem serve_of_fault {input : List UInt8} {before after : List (List UInt8)} {line : List UInt8}
    {f : Utf8.Fault} (hinput : linesOf input = before ++ line :: after)
    (hbefore : (readLines before).2 = none) (hline : readLine line = .error f) :
    g.serve input = (fun rs => (rs, some f)) <$>
      ((readLines before).1.filterMap Request.ofLine?).mapM g.reply := by
  have hread : readLines (linesOf input) = ((readLines before).1, some f) := by
    rw [hinput, readLines_append hbefore, readLines, hline]
    simp
  rw [serve_eq, requests, fault?, hread]

/-! ### Requests without effect -/

variable {q : Request}

theorem reply_of_unknownMethod (hmanifest : q.method ≠ "getManifest".toList)
    (hgenerate : q.method ≠ "generate".toList) :
    g.reply q = pure ⟨q.id, .unknownMethod q.method⟩ := by
  rw [reply, answer, if_neg hmanifest, if_neg hgenerate, map_pure]

theorem reply_of_invalidOptions {f : Json.Fault} (hgenerate : q.method = "generate".toList)
    (hoptions : Options.ofJson q.params = .error f) :
    g.reply q = pure ⟨q.id, .invalidOptions f⟩ := by
  have hmanifest : q.method ≠ "getManifest".toList := by
    rw [hgenerate]
    decide
  rw [reply, answer, if_neg hmanifest, if_pos hgenerate, hoptions, map_pure]

/-! ### The protocol -/

/-- The line is one JSON object with the given id, and with either a result or an error. -/
def IsReplyLine (id : Json) (line : Text) : Prop :=
  '\n' ∉ line ∧ ∃ v : Json, line = v.text ∧ v.member? "id" = some id ∧
    (v.member? "result").isSome = !(v.member? "error").isSome

/-- The rules of a session. -/
structure FollowsProtocol (g : Generator m) : Prop where
  /-- Each request is replied to, in the order of the lines, and nothing else is. -/
  serves : ∀ input, g.serve input = (fun rs => (rs, fault? input)) <$> (requests input).mapM g.reply
  /-- A reply has the id of the request, and is one line. -/
  replies : ∀ q, g.reply q = (Response.mk q.id ·) <$> g.answer q ∧
    ∀ a, IsReplyLine q.id (Response.mk q.id a).text
  /-- What is written are these lines and their ends. -/
  frames : ∀ rs, Text.splitAt '\n' (Response.written rs) = rs.map Response.text ++ [[]]
  /-- An unknown method has no effect and is answered with its code. -/
  unknownMethod : ∀ q : Request, q.method ≠ "getManifest".toList → q.method ≠ "generate".toList →
    ∃ r : Response, g.reply q = pure r ∧ r.errorCode? = some (.number (.negative 32601))
  /-- Options that cannot be decoded have no effect and are answered with their code. -/
  invalidOptions : ∀ (q : Request) (f : Json.Fault), q.method = "generate".toList →
    Options.ofJson q.params = .error f →
      ∃ r : Response, g.reply q = pure r ∧ r.errorCode? = some (.number (.negative 32602))
  /-- Input in parts is answered part by part. -/
  concatenates : ∀ x y, x.getLast? = some 10 → (∀ l ∈ linesOf x, ∃ t, readLine l = .ok t) →
    g.output (x ++ y) = (· ++ ·) <$> g.output x <*> g.output y
  /-- A session whose lines are all UTF-8 ends with the input. -/
  ends : ∀ input, (∀ l ∈ linesOf input, ∃ t, readLine l = .ok t) → fault? input = none
  /-- The first line that is not UTF-8 ends it after the answers to the lines before. -/
  stops : ∀ input before line after f, linesOf input = before ++ line :: after →
    (∀ l ∈ before, ∃ t, readLine l = .ok t) → readLine line = .error f →
      g.serve input = (fun rs => (rs, some f)) <$>
        ((readLines before).1.filterMap Request.ofLine?).mapM g.reply

/-- **The request loop**: every generator is served by the rules of the protocol. -/
theorem followsProtocol (g : Generator m) : g.FollowsProtocol where
  serves := g.serve_eq
  replies q := by
    refine ⟨rfl, fun a => ?_⟩
    have hline := Response.text_eq_json_text ⟨q.id, a⟩
    exact ⟨Response.newline_not_mem_text _, _, hline, Response.member?_id _,
      Response.isSome_result_eq_not_error _⟩
  frames := Response.splitAt_written
  unknownMethod q hmanifest hgenerate :=
    ⟨_, g.reply_of_unknownMethod hmanifest hgenerate, Response.errorCode?_unknownMethod _ _⟩
  invalidOptions q f hgenerate hoptions :=
    ⟨_, g.reply_of_invalidOptions hgenerate hoptions, Response.errorCode?_invalidOptions _ _⟩
  concatenates x y hx hlines := by
    refine g.output_append (fun b hb => ?_) (readLines_fault_eq_none_iff.mpr hlines) y
    rw [hx] at hb
    exact (Option.some.inj hb).symm
  ends input hlines := readLines_fault_eq_none_iff.mpr hlines
  stops input before line after f hinput hbefore hline :=
    g.serve_of_fault hinput (readLines_fault_eq_none_iff.mpr hbefore) hline

/-- A generator that does nothing. -/
def noop : Generator Id where
  name := "Noop"
  defaultOutput := "./noop"
  requires := [clientGenerator]
  generate _ := .ok ()

/-- Lines of which only the last is a request, and of an unknown method. -/
def garbled : List UInt8 :=
  Utf8.encode "not json\n\n\x7b\"id\":7,\"method\":\"frobnicate\"\x7d\n".toList

theorem readLines_garbled : readLines (linesOf garbled) =
    (["not json".toList, [], "\x7b\"id\":7,\"method\":\"frobnicate\"\x7d".toList], none) := by
  decide +kernel

theorem requests_garbled : requests garbled = [⟨.number (.nat 7), "frobnicate", .null⟩] := by
  rw [requests, readLines_garbled]
  rfl

/-- The one request among the lines is answered, again if they are sent again, and not after a line
that is not UTF-8. -/
theorem noop_garbled :
    (noop.output (garbled ++ garbled)).run =
        (noop.output garbled).run ++ (noop.output garbled).run ∧
      (noop.output garbled).run =
        "\x7b\"jsonrpc\":\"2.0\",\"id\":7,\"error\":\x7b\"code\":-32601,".toList ++
          "\"message\":\"unknown method `frobnicate`\"\x7d\x7d\n".toList ∧
      noop.serve (garbled ++ [255, 10] ++ garbled) =
        pure ([⟨.number (.nat 7), .unknownMethod "frobnicate"⟩], some ⟨0, some 1⟩) := by
  have hrules := noop.followsProtocol
  have hlines : ∀ l ∈ linesOf garbled, ∃ t, readLine l = .ok t :=
    readLines_fault_eq_none_iff.mp (congrArg Prod.snd readLines_garbled)
  refine ⟨hrules.concatenates garbled garbled (by decide +kernel) hlines, ?_, ?_⟩
  · rw [output_eq, requests_garbled]
    rfl
  · have hcut : linesOf (garbled ++ [255, 10] ++ garbled) =
        linesOf garbled ++ [255, 10] :: linesOf garbled := by decide +kernel
    have hstop := hrules.stops _ _ _ _ _ hcut hlines rfl
    rw [readLines_garbled] at hstop
    exact hstop

end Generator

end QueryValidator
