import QueryValidator.Proofs.Json.Tokens
import QueryValidator.Proofs.Text.Table

/-!
# Values as they are written

`written` reads a value with the members of its objects as they stand in the text: in their order,
and with keys that are repeated. What `read` gives is this value with its objects made into tables
(`read_eq`).
-/

namespace QueryValidator.Json

/-- The members of an object and its closing brace, each value read by `value`. There are fewer than
`bound` of them. -/
def entries (value : Text → Except Fault (Json × Text)) :
    (bound : Nat) → (first : Bool) → Text → Except Fault (List (Text × Json) × Text)
  | 0, _, _ => .error (.unfinished .object)
  | n + 1, first, t => do
    match ← nextKey first t with
    | none => return ([], ← closeObject t)
    | some r =>
      let (key, r) ← readString r
      let (v, r) ← value (← colon r)
      let (es, r) ← entries value n false r
      return ((key, v) :: es, r)

/-- Reads the value at the front, which may nest to `levels` levels, with its members as they are
written. -/
def written (bound : Nat) : (levels : Nat) → Text → Except Fault (Json × Text)
  | levels, t =>
    match skipBlanks t with
    | [] => .error (.unfinished .value)
    | 'n' :: r => (word "ull" r).map (Json.null, ·)
    | 't' :: r => (word "rue" r).map (Json.bool true, ·)
    | 'f' :: r => (word "alse" r).map (Json.bool false, ·)
    | '-' :: r => (readNumber true r).map fun (n, rest) => (Json.number n, rest)
    | '"' :: r => (readString r).map fun (s, rest) => (Json.string s, rest)
    | '[' :: r =>
      match levels with
      | 0 => .error (.malformed .tooDeep)
      | n + 1 => (elements (fun r => written bound n r) bound true r).map fun (vs, rest) =>
          (Json.array vs, rest)
    | '{' :: r =>
      match levels with
      | 0 => .error (.malformed .tooDeep)
      | n + 1 => (entries (fun r => written bound n r) bound true r).map fun (es, rest) =>
          (Json.object es, rest)
    | c :: r =>
      if c.isDigit then (readNumber false (c :: r)).map fun (n, rest) => (Json.number n, rest)
      else .error (.malformed .expectedValue)

mutual

/-- The value with the members of its objects in tables: sorted, and the last of each key. -/
def tabled : Json → Json
  | .null => .null
  | .bool b => .bool b
  | .number n => .number n
  | .string t => .string t
  | .array items => .array (tabledItems items)
  | .object es => .object (Text.tableOf (tabledEntries es))

def tabledItems : List Json → List Json
  | [] => []
  | v :: vs => tabled v :: tabledItems vs

def tabledEntries : List (Text × Json) → List (Text × Json)
  | [] => []
  | e :: es => tabledEntry e :: tabledEntries es

def tabledEntry : Text × Json → Text × Json
  | (k, v) => (k, tabled v)

end

mutual

/-- No object in the value has a key twice. -/
def keysDistinct : Json → Bool
  | .array items => itemsDistinct items
  | .object es => (es.map Prod.fst).Nodup && entriesDistinct es
  | _ => true

def itemsDistinct : List Json → Bool
  | [] => true
  | v :: vs => keysDistinct v && itemsDistinct vs

def entriesDistinct : List (Text × Json) → Bool
  | [] => true
  | e :: es => entryDistinct e && entriesDistinct es

def entryDistinct : Text × Json → Bool
  | (_, v) => keysDistinct v

end

theorem tabledItems_eq_map (vs : List Json) : tabledItems vs = vs.map tabled := by
  induction vs with
  | nil => rfl
  | cons v vs ih => rw [tabledItems, ih, List.map_cons]

theorem tabledEntries_eq_map (es : List (Text × Json)) :
    tabledEntries es = es.map fun e => (e.1, e.2.tabled) := by
  induction es with
  | nil => rfl
  | cons e es ih =>
    rw [tabledEntries, ih, List.map_cons]
    cases e
    rfl

theorem map_fst_tabledEntries (es : List (Text × Json)) :
    (tabledEntries es).map Prod.fst = es.map Prod.fst := by
  rw [tabledEntries_eq_map, List.map_map]
  rfl

/-- Where no key is given twice, the table of an object has the members of the object. -/
theorem tableOf_tabledEntries_perm {es : List (Text × Json)} (h : (es.map Prod.fst).Nodup) :
    (Text.tableOf (tabledEntries es)).Perm (tabledEntries es) :=
  Text.tableOf_perm (by rwa [map_fst_tabledEntries])

theorem itemsDistinct_iff {vs : List Json} :
    itemsDistinct vs = true ↔ ∀ v ∈ vs, v.keysDistinct = true := by
  induction vs with
  | nil => simp [itemsDistinct]
  | cons v vs ih => rw [itemsDistinct, Bool.and_eq_true, ih, List.forall_mem_cons]

theorem entriesDistinct_iff {es : List (Text × Json)} :
    entriesDistinct es = true ↔ ∀ e ∈ es, e.2.keysDistinct = true := by
  induction es with
  | nil => simp [entriesDistinct]
  | cons e es ih =>
    rw [entriesDistinct, Bool.and_eq_true, ih, List.forall_mem_cons]
    cases e
    rfl

theorem keysDistinct_array {vs : List Json} :
    (array vs).keysDistinct = true ↔ ∀ v ∈ vs, v.keysDistinct = true :=
  itemsDistinct_iff

theorem keysDistinct_object {es : List (Text × Json)} :
    (object es).keysDistinct = true ↔
      (es.map Prod.fst).Nodup ∧ ∀ e ∈ es, e.2.keysDistinct = true := by
  rw [keysDistinct, Bool.and_eq_true, decide_eq_true_iff, entriesDistinct_iff]

/-! ### What is read and what is written -/

/-- Reading items by a function of what another reader gives. -/
theorem elements_map {α β : Type} {item : Text → Except Fault (α × Text)}
    {item' : Text → Except Fault (β × Text)} {f : α → β}
    (h : ∀ t, item' t = (item t).map (Prod.map f id)) (bound : Nat) (first : Bool) (t : Text) :
    elements item' bound first t =
      (elements item bound first t).map (Prod.map (List.map f) id) := by
  induction bound generalizing first t with
  | zero => rfl
  | succ n ih =>
    unfold elements
    cases nextElement first t with
    | error e => rfl
    | ok next =>
      cases next with
      | none =>
        show (closeArray t >>= _) = _
        cases closeArray t <;> rfl
      | some q =>
        show (item' q >>= _) = Except.map _ (item q >>= _)
        rw [h]
        cases item q with
        | error e => rfl
        | ok p =>
          show (elements item' n false p.2 >>= _) = Except.map _ (elements item n false p.2 >>= _)
          rw [ih]
          cases elements item n false p.2 <;> rfl

/-- Reads the colon and the value of a member, and puts it into what `set` makes of the members. -/
def memberStep {σ : Type} (set : σ → Text → Json → σ) (value : Text → Except Fault (Json × Text))
    (key : Text) (s : σ) (t : Text) : Except Fault (σ × Text) := do
  let (v, r) ← value (← colon t)
  return (set s key v, r)

/-- Reading members one after the other by a reader that gives tables. -/
theorem members_eq {σ : Type} (set : σ → Text → Json → σ)
    {value value' : Text → Except Fault (Json × Text)}
    (h : ∀ t, value' t = (value t).map (Prod.map tabled id)) (bound : Nat) (first : Bool) (s : σ)
    (t : Text) :
    members (memberStep set value') bound first s t =
      (entries value bound first t).map
        (Prod.map (fun es => (tabledEntries es).foldl (fun s (k, v) => set s k v) s) id) := by
  induction bound generalizing first s t with
  | zero => rfl
  | succ n ih =>
    unfold members entries
    cases nextKey first t with
    | error e => rfl
    | ok next =>
      cases next with
      | none =>
        show (closeObject t >>= _) = _
        cases closeObject t <;> rfl
      | some q =>
        show (readString q >>= _) = Except.map _ (readString q >>= _)
        cases readString q with
        | error e => rfl
        | ok p =>
          show (memberStep set value' p.1 s p.2 >>= _) = Except.map _ (colon p.2 >>= _)
          unfold memberStep
          cases colon p.2 with
          | error e => rfl
          | ok u =>
            show ((value' u >>= _) >>= _) = Except.map _ (value u >>= _)
            rw [h]
            cases value u with
            | error e => rfl
            | ok w =>
              show members (memberStep set value') n false _ w.2 =
                Except.map _ (entries value n false w.2 >>= _)
              rw [ih]
              cases entries value n false w.2 <;> rfl

/-- A value without members is its own table. -/
theorem map_eq_map_tabled {α : Type} (x : Except Fault α) {f : α → Json × Text}
    (h : ∀ a, (f a).1.tabled = (f a).1) : x.map f = (x.map f).map (Prod.map tabled id) := by
  cases x with
  | error e => rfl
  | ok a => exact congrArg Except.ok (Prod.ext (h a).symm rfl)

theorem read_eq (bound levels : Nat) (t : Text) :
    read bound levels t = (written bound levels t).map (Prod.map tabled id) := by
  induction levels using Nat.strongRecOn generalizing t with
  | ind levels ih =>
    unfold read written
    generalize skipBlanks t = u
    split
    · rfl
    · exact map_eq_map_tabled _ fun _ => rfl
    · exact map_eq_map_tabled _ fun _ => rfl
    · exact map_eq_map_tabled _ fun _ => rfl
    · exact map_eq_map_tabled _ fun _ => rfl
    · exact map_eq_map_tabled _ fun _ => rfl
    · next r =>
      cases levels with
      | zero => rfl
      | succ n =>
        have helements := elements_map (ih n (Nat.lt_succ_self n)) bound true r
        show Except.map _ (elements (read bound n) bound true r) =
          Except.map _ (Except.map _ (elements (written bound n) bound true r))
        rw [helements]
        cases elements (written bound n) bound true r with
        | error e => rfl
        | ok p => simp [Except.map, tabled, tabledItems_eq_map]
    · next r =>
      cases levels with
      | zero => rfl
      | succ n =>
        have hmembers := members_eq (fun table key v => Text.setKey key v table)
          (ih n (Nat.lt_succ_self n)) bound true [] r
        show Except.map _ (members (memberStep (fun table key v => Text.setKey key v table)
            (read bound n)) bound true [] r) =
          Except.map _ (Except.map _ (entries (written bound n) bound true r))
        rw [hmembers]
        cases entries (written bound n) bound true r <;> rfl
    · simp only []
      split_ifs
      · exact map_eq_map_tabled _ fun _ => rfl
      · rfl

end QueryValidator.Json
