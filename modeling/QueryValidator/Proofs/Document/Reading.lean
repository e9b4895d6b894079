import QueryValidator.Proofs.Json.Agreement
import QueryValidator.Proofs.Json.Additions
import QueryValidator.Service.Options

/-!
# Reading documents

A document is read from a text as from the value that the text holds, also where that value is the
document of a request; and members that documents do not have are passed over at any depth.
-/

namespace QueryValidator

open Json

namespace Options

theorem toOption_ofJson_setKey {ms : List (Text × Json)} {o : Options} {w : Json}
    (hnodup : (ms.map Prod.fst).Nodup) (hnew : ("dmmf" : Text) ∉ ms.map Prod.fst)
    (h : Options.ofJson (.object (Text.setKey "dmmf" w ms)) = .ok o) (v : Json) :
    (Options.ofJson (.object (Text.setKey "dmmf" v ms))).toOption =
      (Document.ofJson v).toOption.map fun d => { o with document := d } := by
  rw [← Except.toOption_eq_some_iff] at h
  unfold Options.ofJson Options.shape at h ⊢
  rw [toOption_ofJson_object] at h ⊢
  generalize hf : (Fields.required _ _ _) = fields at h ⊢
  have hmember : ∀ (x : Json) g os y ds u, fields.memberOfJson "dmmf" x (g, os, y, ds, u) =
      (Document.ofJson x).map fun d => (g, os, some d, ds, u) := by
    intro x g os y ds u
    subst hf
    unfold Fields.required Fields.default
    rw [Fields.memberOfJson_cons_of_ne (by decide), Fields.memberOfJson_cons_of_ne (by decide),
      Fields.memberOfJson_cons_self]
    cases hx : Document.shape.ofJson x <;> simp [Document.ofJson, hx, Except.map]
  have hcomplete : ∀ g os d ds u, (fields.complete (g, os, some d, ds, u)).toOption =
      g.map fun generator => (generator, os.getD [], d, ds.getD [], ()) := by
    intro g os d ds u
    subst hf
    cases g <;> cases os <;> cases ds <;> rfl
  rw [fields.toOption_fill_setKey hnodup hnew] at h ⊢
  cases hfill : fields.fill fields.empty ms with
  | error e =>
    rw [hfill] at h
    cases h
  | ok slots =>
    obtain ⟨g, os, y, ds, u⟩ := slots
    rw [hfill] at h
    simp only [Except.toOption_ok, Option.bind_some, hmember, Except.toOption_map, Option.bind_map,
      Function.comp_def, hcomplete, Option.map_map] at h ⊢
    obtain ⟨d, -, hd⟩ := Option.bind_eq_some_iff.mp h
    obtain ⟨generator, rfl, rfl⟩ := Option.map_eq_some_iff.mp hd
    cases Document.ofJson v <;> rfl

end Options

namespace Document

/-- **A document is read from a text as from the value that the text holds**, and as from a request
that has this value for its document. -/
theorem ofText_iff_ofJson {t : Text} {v : Json} (hv : Json.parse t = .ok v)
    (hkeys : NoRepeatedKey t) :
    (∀ d, ofText t = .ok d ↔ ofJson v = .ok d) ∧
    ∀ (ms : List (Text × Json)) (w : Json) (o : Options), (ms.map Prod.fst).Nodup →
      ("dmmf" : Text) ∉ ms.map Prod.fst →
      Options.ofJson (.object (Text.setKey "dmmf" w ms)) = .ok o →
      (Options.ofJson (.object (Text.setKey "dmmf" v ms))).toOption =
        (ofText t).toOption.map fun d => { o with document := d } := by
  have hread : (ofText t).toOption = (ofJson v).toOption := shape.toOption_parse hv hkeys
  refine ⟨Except.toOption_eq_iff.mp hread, ?_⟩
  intro ms w o hnodup hnew ho
  rw [hread]
  exact Options.toOption_ofJson_setKey hnodup hnew ho v

/-- A text whose members are not in the order of their keys, with records read from arrays and with
members that the records do not have. -/
def unsortedText : Text :=
  "\x7b\"schema\":[\x7b\x7d,\x7b\x7d],\"more\":\x7b\"z\":1,\"a\":[]\x7d,".toList ++
    "\"datamodel\":\x7b\"models\":[\x7b\"name\":\"U\",\"dbName\":null,\"fields\":[]".toList ++
    "\x7d]\x7d,\"mappings\":[[]]\x7d".toList

def unsorted : Json :=
  .object [("schema", .array [.object [], .object []]),
    ("more", .object [("z", .number (.nat 1)), ("a", .array [])]),
    ("datamodel", .object [("models", .array [.object [("name", .string "U"), ("dbName", .null),
      ("fields", .array [])]])]),
    ("mappings", .array [.array []])]

set_option maxRecDepth 20000 in
theorem written_unsortedText :
    written (memberBound unsortedText) maxDepth unsortedText = .ok (unsorted, []) := by rfl

theorem parse_unsortedText : Json.parse unsortedText = .ok unsorted.tabled :=
  parse_eq_ok_iff.mpr ⟨unsorted, [], written_unsortedText, rfl, rfl⟩

theorem noRepeatedKey_unsortedText : NoRepeatedKey unsortedText :=
  ⟨unsorted, [], written_unsortedText, by decide⟩

/-- The document of the text. -/
def oneModel : Document := ⟨[⟨"U", []⟩], [], [], [], [], []⟩

/-- What a request holds beside its document. -/
def besides : List (Text × Json) :=
  [("generator", .object [("name", .string "v"), ("provider", .object [])])]

/-- A document without any parts. -/
def blank : Json :=
  .array [.array [.array []], .array [.array [], .array []], .array [.array []]]

def blankOptions : Options :=
  ⟨⟨"v", ⟨none, none⟩, none, .empty, [], false⟩, [], ⟨[], [], [], [], [], []⟩, []⟩

/-- The document is read from the text, and from a request that has its value. -/
theorem unsortedText_read :
    Json.parse unsortedText = .ok unsorted.tabled ∧ NoRepeatedKey unsortedText ∧
      (besides.map Prod.fst).Nodup ∧ ("dmmf" : Text) ∉ besides.map Prod.fst ∧
      Options.ofJson (.object (Text.setKey "dmmf" blank besides)) = .ok blankOptions ∧
      ofText unsortedText = .ok oneModel ∧
      Options.ofJson (.object (Text.setKey "dmmf" unsorted.tabled besides)) =
        .ok { blankOptions with document := oneModel } := by
  have hrest : (besides.map Prod.fst).Nodup := by decide
  have hnew : ("dmmf" : Text) ∉ besides.map Prod.fst := by decide
  have hblank :
      Options.ofJson (.object (Text.setKey "dmmf" blank besides)) = .ok blankOptions := rfl
  have hvalue : ofJson unsorted.tabled = .ok oneModel := rfl
  obtain ⟨hread, hrequest⟩ := ofText_iff_ofJson parse_unsortedText noRepeatedKey_unsortedText
  have htext : ofText unsortedText = .ok oneModel := (hread oneModel).mpr hvalue
  refine ⟨parse_unsortedText, noRepeatedKey_unsortedText, hrest, hnew, hblank, htext, ?_⟩
  rw [← Except.toOption_eq_some_iff, hrequest besides blank blankOptions hrest hnew hblank, htext]
  rfl

/-- **Members that the records of a document do not have change nothing in what is read**, from a
value and from a text. -/
theorem ofJson_iff_of_adds {v v' : Json} (h : Relation.ReflTransGen Document.shape.Adds v v') :
    (∀ d, ofJson v = .ok d ↔ ofJson v' = .ok d) ∧
    ∀ t t', Json.parse t = .ok v → Json.parse t' = .ok v' → NoRepeatedKey t → NoRepeatedKey t' →
      ∀ d, ofText t = .ok d ↔ ofText t' = .ok d := by
  have hvalues : (ofJson v).toOption = (ofJson v').toOption :=
    Shape.toOption_ofJson_of_reflTransGen h
  refine ⟨Except.toOption_eq_iff.mp hvalues, ?_⟩
  intro t t' ht ht' hkeys hkeys'
  have htexts : (ofText t).toOption = (ofText t').toOption :=
    calc (shape.parse t).toOption = (shape.ofJson v).toOption := shape.toOption_parse ht hkeys
      _ = (shape.ofJson v').toOption := hvalues
      _ = (shape.parse t').toOption := (shape.toOption_parse ht' hkeys').symm
  exact Except.toOption_eq_iff.mp htexts

/-- The same document, sorted and without other members. -/
def plainText : Text :=
  "\x7b\"datamodel\":\x7b\"models\":[\x7b\"fields\":[],\"name\":\"U\"\x7d]\x7d,".toList ++
    "\"mappings\":[[]],\"schema\":[\x7b\x7d,\x7b\x7d]\x7d".toList

def plain : Json :=
  .object [("datamodel", .object [("models", .array [.object [("fields", .array []),
      ("name", .string "U")]])]),
    ("mappings", .array [.array []]), ("schema", .array [.object [], .object []])]

set_option maxRecDepth 20000 in
theorem written_plainText :
    written (memberBound plainText) maxDepth plainText = .ok (plain, []) := by rfl

theorem parse_plainText : Json.parse plainText = .ok plain :=
  parse_eq_ok_iff.mpr ⟨plain, [], written_plainText, rfl, rfl⟩

theorem noRepeatedKey_plainText : NoRepeatedKey plainText :=
  ⟨plain, [], written_plainText, by decide⟩

/-- A member more in the model, and then one in the document. -/
theorem plain_adds_unsorted : Relation.ReflTransGen Document.shape.Adds plain unsorted.tabled :=
  .tail (.single (.member [] .head (.member [] .head (.item [] (.here "dbName" .null
    (by decide)))))) (.here "more" (.object [("a", .array []), ("z", .number (.nat 1))])
    (by decide))

theorem plainText_read :
    Relation.ReflTransGen Document.shape.Adds plain unsorted.tabled ∧
      Json.parse plainText = .ok plain ∧ Json.parse unsortedText = .ok unsorted.tabled ∧
      NoRepeatedKey plainText ∧ NoRepeatedKey unsortedText ∧
      ofJson unsorted.tabled = .ok oneModel ∧ ofText plainText = .ok oneModel ∧
      ofText unsortedText = .ok oneModel := by
  have hplain : ofJson plain = .ok oneModel := rfl
  have htext : ofText plainText = .ok oneModel := by
    rw [← Except.toOption_eq_some_iff]
    exact (shape.toOption_parse parse_plainText noRepeatedKey_plainText).trans
      (congrArg Except.toOption hplain)
  obtain ⟨hvalues, htexts⟩ := ofJson_iff_of_adds plain_adds_unsorted
  have hunsorted := htexts plainText unsortedText parse_plainText parse_unsortedText
    noRepeatedKey_plainText noRepeatedKey_unsortedText oneModel
  exact ⟨plain_adds_unsorted, parse_plainText, parse_unsortedText, noRepeatedKey_plainText,
    noRepeatedKey_unsortedText, (hvalues oneModel).mp hplain, htext, hunsorted.mp htext⟩

end Document

end QueryValidator
