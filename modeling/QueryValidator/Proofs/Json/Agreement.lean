import QueryValidator.Proofs.Json.Spelling
import QueryValidator.Proofs.Json.Record

/-!
# Two readers of one shape

Where a text holds a value in which no key is repeated, a shape reads from the text what it reads
from the value.
-/

namespace QueryValidator.Json

variable {α : Type} {bound levels : Nat}

/-- Where a text holds a value in which no key is repeated, `fromText` reads from the text what
`fromValue` reads from the value, and leaves what stands behind it. -/
def Agree (bound levels : Nat) (fromText : Text → Except Fault (α × Text))
    (fromValue : Json → Except Fault α) : Prop :=
  ∀ ⦃t w r⦄, written bound levels t = .ok (w, r) → w.keysDistinct = true → t.length ≤ bound →
    (fromText t).toOption = (fromValue w.tabled).toOption.map (·, r)

theorem agree_text (wanted : Text) : Agree bound levels (textAt wanted) (textIn wanted) := by
  intro t w r h _ _
  have hspelled := spelled_of_written h
  unfold textAt
  generalize skipBlanks t = u at hspelled ⊢
  cases hspelled with
  | string hq => exact congrArg Except.toOption hq
  | digits hdigit hq =>
    split
    · next heq => exact absurd heq (cons_ne_of_isDigit hdigit rfl)
    · rfl
  | _ => rfl

theorem agree_flag : Agree bound levels flagAt (Shape.ofJson .flag) := by
  intro t w r h _ _
  have hspelled := spelled_of_written h
  unfold flagAt
  generalize skipBlanks t = u at hspelled ⊢
  cases hspelled with
  | true hq | false hq =>
    show (Except.map _ (word _ _)).toOption = _
    rw [hq]
    rfl
  | digits hdigit hq =>
    split
    · next heq => exact absurd heq (cons_ne_of_isDigit hdigit rfl)
    · next heq => exact absurd heq (cons_ne_of_isDigit hdigit rfl)
    · rfl
  | _ => rfl

theorem toOption_paired (x : Except Fault α) (r : Text) :
    (x >>= fun a => (pure (a, r) : Except Fault (α × Text))).toOption = x.toOption.map (·, r) := by
  cases x <;> rfl

theorem agree_count : Agree bound levels countAt (Shape.ofJson .count) := by
  intro t w r h _ _
  have hspelled := spelled_of_written h
  unfold countAt
  generalize skipBlanks t = u at hspelled ⊢
  cases hspelled with
  | negative hq =>
    show (readNumber true _ >>= _).toOption = _
    rw [hq]
    exact toOption_paired _ _
  | digits hdigit hq =>
    obtain ⟨hn, ht, hf, hminus, hquote, hopen, hbrace⟩ := ne_of_isDigit hdigit
    simp only [if_pos hdigit]
    show (readNumber false _ >>= _).toOption = _
    rw [hq]
    exact toOption_paired _ _
  | _ => rfl

theorem agree_value : Agree bound levels (read bound levels) Except.ok := by
  intro t w r h _ _
  rw [read_eq, h]
  rfl

theorem toOption_nullAt (wanted : Text) {t r : Text} {w : Json}
    (h : written bound levels t = .ok (w, r)) :
    (nullAt wanted t).toOption = match w with
      | .null => some r
      | _ => none := by
  have hspelled := spelled_of_written h
  unfold nullAt
  generalize skipBlanks t = u at hspelled ⊢
  cases hspelled with
  | null hq => exact congrArg Except.toOption hq
  | digits hdigit hq =>
    split
    · next heq => exact absurd heq (cons_ne_of_isDigit hdigit rfl)
    · rfl
  | _ => rfl

/-! ### Names -/

/-- Behind the colon of the one member that tells `x` by its name: `null` and the end of the
object. -/
def unitEnd (x : α) (t : Text) : Except Fault (α × Text) := do
  let r ← nullAt "unit" t
  match skipBlanks r with
  | [] => .error (.unfinished .object)
  | '}' :: r => return (x, r)
  | _ => .error (.malformed .expectedValue)

section

variable {t s r : Text} {w : Json}

theorem toOption_unitEnd_of_close (x : α) (h : written bound levels t = .ok (w, s))
    (hclose : closeObject s = .ok r) :
    (unitEnd x t).toOption = match w with
      | .null => some (x, r)
      | _ => none := by
  unfold unitEnd
  rw [Except.toOption_bind, toOption_nullAt "unit" h]
  cases w with
  | null =>
    dsimp only [Option.bind_some]
    rw [skipBlanks_of_closeObject hclose]
    rfl
  | _ => rfl

theorem toOption_unitEnd_of_more (x : α) (h : written bound levels t = .ok (w, s)) {q : Text}
    (hnext : nextKey false s = .ok (some q)) : (unitEnd x t).toOption = none := by
  unfold unitEnd
  rw [Except.toOption_bind, toOption_nullAt "unit" h]
  cases w with
  | null =>
    dsimp only [Option.bind_some]
    split
    · rfl
    · next heq => exact absurd heq (skipBlanks_ne_of_nextKey hnext)
    · rfl
  | _ => rfl

end

/-- A name is told by an object of one member. -/
theorem toOption_choiceIn_of_two_le (options : List (Text × α)) {ms : List (Text × Json)}
    (h : 2 ≤ ms.length) : (choiceIn options (.object ms)).toOption = none := by
  match ms, h with
  | _ :: _ :: _, _ => rfl

theorem agree_choice (options : List (Text × α)) :
    Agree bound levels (choiceAt options levels) (choiceIn options) := by
  intro t w r hw hdistinct _
  have hspelled := spelled_of_written hw
  unfold choiceAt
  generalize skipBlanks t = u at hspelled ⊢
  cases hspelled with
  | string hq =>
    show (readString _ >>= _).toOption = Option.map _ (variantOf options _).toOption
    rw [hq]
    exact toOption_paired _ _
  | @object n q es r hq =>
    show (nextKey true q >>= _).toOption = _
    have hmembers := members_of_entries hq
    cases hmembers with
    | done hnext hclose =>
      rw [hnext]
      rfl
    | @more _ _ _ p key u' p' v s es _ hnext hkey hcolon hvalue hrest =>
      rw [hnext]
      show (readString p >>= _).toOption = _
      rw [hkey]
      show (variantOf options key >>= fun x => colon u' >>= _).toOption = _
      rw [hcolon]
      show (variantOf options key >>= fun x => unitEnd x p').toOption = _
      rw [Except.toOption_bind]
      cases hrest with
      | done hend hclose =>
        simp only [toOption_unitEnd_of_close _ hvalue hclose]
        show _ = Option.map _ (variantOf options key >>= _).toOption
        rw [Except.toOption_bind]
        cases variantOf options key with
        | error e => rfl
        | ok x => cases v <;> rfl
      | more hmore _ _ _ _ =>
        have htwo := (tableOf_tabledEntries_perm (keysDistinct_object.mp hdistinct).1).length_eq
        simp only [toOption_unitEnd_of_more _ hvalue hmore, Option.bind_fun_none]
        show _ = Option.map _ (choiceIn options (.object (Text.tableOf (tabledEntries _)))).toOption
        rw [toOption_choiceIn_of_two_le options (htwo ▸ Nat.le_add_left 2 _)]
        rfl
  | digits hdigit hq =>
    split
    · rfl
    · next heq => exact absurd heq (cons_ne_of_isDigit hdigit rfl)
    · next heq => exact absurd heq (cons_ne_of_isDigit hdigit rfl)
    · rfl
  | _ => rfl

/-! ### Tables, lists and options -/

theorem agree_table :
    Agree bound levels (Shape.ofText bound .table levels) (Shape.ofJson .table) := by
  intro t w r h hdistinct _
  have hspelled := spelled_of_written h
  unfold Shape.ofText
  generalize skipBlanks t = u at hspelled ⊢
  cases hspelled with
  | @object n q es r hq =>
    have hmembers := members_eq Text.Table.set (read_eq bound n) bound true .empty q
    show (members (memberStep Text.Table.set (read bound n)) bound true .empty q).toOption =
      some (Text.Table.ofEntries (Text.tableOf (tabledEntries es)), r)
    rw [hmembers, hq, Text.Table.ofEntries_tableOf]
    rfl
  | digits hdigit hq =>
    split
    · next heq => exact absurd heq (cons_ne_of_isDigit hdigit rfl)
    · rfl
  | _ => rfl

section

variable {item : Text → Except Fault (α × Text)} {f : Json → Except Fault α}

theorem Items.toOption_elements (hitem : Agree bound levels item f) {n : Nat} {first : Bool}
    {t r : Text} {ws : List Json} (h : Items (written bound levels) n first t ws r)
    (hdistinct : ∀ w ∈ ws, w.keysDistinct = true) (hbound : t.length ≤ bound) :
    (elements item n first t).toOption = ((ws.map tabled).mapM f).toOption.map (·, r) := by
  induction h with
  | done hnext hclose =>
    unfold elements
    rw [hnext]
    show (closeArray _ >>= _).toOption = _
    rw [hclose]
    rfl
  | more hnext hw hrest ih =>
    obtain ⟨hd, hds⟩ := List.forall_mem_cons.mp hdistinct
    have hq := (length_nextElement_le hnext).trans hbound
    have hstep := hitem hw hd hq
    have hloop := ih hds ((length_written_lt hw).le.trans hq)
    unfold elements
    rw [hnext]
    show (item _ >>= _).toOption = _
    rw [Except.toOption_bind, hstep, List.map_cons, List.mapM_cons, Except.toOption_bind]
    cases f _ with
    | error e => rfl
    | ok x =>
      show (elements item _ false _ >>= _).toOption = Option.map _ (List.mapM f _ >>= _).toOption
      rw [Except.toOption_bind, Except.toOption_bind, hloop]
      cases List.mapM f _ <;> rfl

theorem agree_list {item : Shape α} (h : ∀ n, Agree bound n (item.ofText bound n) item.ofJson) :
    Agree bound levels (Shape.ofText bound (.list item) levels) (Shape.ofJson (.list item)) := by
  intro t w r hw hdistinct hbound
  have hspelled := spelled_of_written hw
  have hlength := (length_skipBlanks_le t).trans hbound
  unfold Shape.ofText
  generalize skipBlanks t = u at hspelled hlength ⊢
  cases hspelled with
  | @array n q ws r hq =>
    have hitems := (items_of_elements hq).toOption_elements (h n) (keysDistinct_array.mp hdistinct)
      (Nat.le_of_succ_le hlength)
    rw [tabled, tabledItems_eq_map]
    exact hitems
  | digits hdigit hq =>
    split
    · next heq => exact absurd heq (cons_ne_of_isDigit hdigit rfl)
    · rfl
  | _ => rfl

theorem agree_option {inner : Shape α}
    (h : Agree bound levels (inner.ofText bound levels) inner.ofJson) :
    Agree bound levels (Shape.ofText bound (.option inner) levels)
      (Shape.ofJson (.option inner)) := by
  intro t w r hw hdistinct hbound
  have hspelled := spelled_of_written hw
  have hinner : (Except.map (Prod.map some id) (inner.ofText bound levels t)).toOption =
      ((inner.ofJson w.tabled).map some).toOption.map (·, r) := by
    rw [Except.toOption_map, h hw hdistinct hbound]
    cases inner.ofJson w.tabled <;> rfl
  unfold Shape.ofText
  generalize skipBlanks t = u at hspelled ⊢
  cases hspelled with
  | null hq =>
    show (Except.map _ (word _ _)).toOption = _
    rw [hq]
    rfl
  | digits hdigit hq =>
    split
    · next heq => exact absurd heq (cons_ne_of_isDigit hdigit rfl)
    · exact hinner
  | _ => exact hinner

end

/-! ### Records -/

section

variable {σ β : Type}

/-- `Agree` for the members of an object: the text is read from behind the key. -/
def Fields.MembersAgree (bound levels : Nat) (fields : Fields σ β) : Prop :=
  ∀ ⦃key slots t u w r⦄, fields.Vacant key slots → colon t = .ok u →
    written bound levels u = .ok (w, r) → w.keysDistinct = true → u.length ≤ bound →
    (fields.memberOfText bound levels key slots t).toOption =
      (fields.memberOfJson key w.tabled slots).toOption.map (·, r)

/-- The row that is read, and what is left behind the array. -/
def closedRow (x : Except Fault (β × Text)) : Option (β × Text) :=
  x.toOption.bind fun (row, q) => (closeArray q).toOption.map (row, ·)

theorem closedRow_cons {γ : Type} (v : γ) (x : Except Fault (β × Text)) :
    closedRow (x >>= fun (row, q) => pure ((v, row), q)) =
      (closedRow x).map (Prod.map (Prod.mk v) id) := by
  cases x with
  | error e => rfl
  | ok p =>
    obtain ⟨row, q⟩ := p
    show Option.map _ (closeArray q).toOption = Option.map _ (Option.map _ (closeArray q).toOption)
    cases closeArray q <;> rfl

/-- A row that is read alike stays so with one more value in front. -/
theorem closedRow_cons_eq {γ : Type} (v : γ) {x : Except Fault (β × Text)}
    {y : Except Fault (β × List Json)} {r : Text} (h : closedRow x = (fullRow y).map (·, r)) :
    closedRow (x >>= fun (row, q) => pure ((v, row), q)) =
      (fullRow (y >>= fun (row, left) => pure ((v, row), left))).map (·, r) := by
  rw [closedRow_cons, fullRow_cons, h, Option.map_map, Option.map_map]
  rfl

/-- `Agree` for the elements of an array: as many as there are fields, and then its end. -/
def Fields.RowsAgree (bound levels : Nat) (fields : Fields σ β) : Prop :=
  ∀ (whole : Text) (index : Nat) ⦃n first t ws r⦄, Items (written bound levels) n first t ws r →
    (∀ w ∈ ws, w.keysDistinct = true) → t.length ≤ bound →
    closedRow (fields.elementsOfText bound levels whole index first t) =
      (fullRow (fields.elementsOfJson whole index (ws.map tabled))).map (·, r)

theorem Members.toOption_members {fields : Fields σ β} (hfields : fields.MembersAgree bound levels)
    {n : Nat} {first : Bool} {t r : Text} {es : List (Text × Json)} {slots : σ}
    (h : Members (written bound levels) n first t es r)
    (hnodup : (es.map Prod.fst).Nodup) (hdistinct : ∀ e ∈ es, e.2.keysDistinct = true)
    (hvacant : ∀ e ∈ es, fields.Vacant e.1 slots) (hbound : t.length ≤ bound) :
    (members (fun key slots r => fields.memberOfText bound levels key slots r) n first slots
        t).toOption =
      (fields.fill slots (tabledEntries es)).toOption.map (·, r) := by
  induction h generalizing slots with
  | done hnext hclose =>
    unfold members
    rw [hnext]
    show (closeObject _ >>= _).toOption = _
    rw [hclose]
    rfl
  | @more _ _ _ _ key u p v s es _ hnext hkey hcolon hvalue hrest ih =>
    obtain ⟨hnew, hnodup⟩ := List.nodup_cons.mp hnodup
    obtain ⟨hd, hds⟩ := List.forall_mem_cons.mp hdistinct
    obtain ⟨hv, hvs⟩ := List.forall_mem_cons.mp hvacant
    have hp := (length_member_lt hnext hkey hcolon).le.trans hbound
    have hstep := hfields hv hcolon hvalue hd hp
    unfold members
    rw [hnext]
    show (readString _ >>= _).toOption = _
    rw [hkey]
    show (fields.memberOfText bound levels key slots u >>= _).toOption =
      Option.map _ (fields.memberOfJson key v.tabled slots >>= _).toOption
    rw [Except.toOption_bind, hstep, Except.toOption_bind]
    cases hmember : fields.memberOfJson key v.tabled slots with
    | error e => rfl
    | ok slots' =>
      -- the keys that follow are others, so their fields are still vacant
      refine ih hnodup hds (fun e he => ?_) ((length_written_lt hvalue).le.trans hp)
      have hne : e.1 ≠ key := by
        rintro rfl
        exact hnew (List.mem_map.mpr ⟨e, he, rfl⟩)
      exact fields.vacant_of_memberOfJson hne (hvs e he) hmember

theorem agree_record (name : Text) {fields : Fields σ β} (build : β → α)
    (hmembers : ∀ n, fields.MembersAgree bound n) (hrows : ∀ n, fields.RowsAgree bound n) :
    Agree bound levels (Shape.ofText bound (.record name fields build) levels)
      (Shape.ofJson (.record name fields build)) := by
  intro t w r hw hdistinct hbound
  have hspelled := spelled_of_written hw
  have hlength := (length_skipBlanks_le t).trans hbound
  unfold Shape.ofText
  generalize skipBlanks t = u at hspelled hlength ⊢
  cases hspelled with
  | @array n q ws r hq =>
    have hrow := hrows n (recordText name fields.size) 0 (items_of_elements hq)
      (keysDistinct_array.mp hdistinct) (Nat.le_of_succ_le hlength)
    have hclosed : ∀ x : Except Fault (β × Text),
        (x >>= fun (row, q) => do return (build row, ← closeArray q)).toOption =
          (closedRow x).map (Prod.map build id) := by
      rintro (e | ⟨row, q⟩)
      · rfl
      · show (closeArray q >>= _).toOption = Option.map _ (Option.map _ (closeArray q).toOption)
        cases closeArray q <;> rfl
    rw [tabled, tabledItems_eq_map, toOption_ofJson_array]
    show (fields.elementsOfText bound n (recordText name fields.size) 0 true q >>= _).toOption = _
    rw [hclosed, hrow, Option.map_map, Option.map_map]
    rfl
  | @object n q es r hq =>
    obtain ⟨hnodup, hvalues⟩ := keysDistinct_object.mp hdistinct
    have hloop := (members_of_entries hq).toOption_members (hmembers n) hnodup hvalues
      (fun e _ => fields.vacant_empty e.1) (Nat.le_of_succ_le hlength)
    have hperm := fields.toOption_fill_of_perm
      (tableOf_tabledEntries_perm hnodup).symm (by rwa [map_fst_tabledEntries]) fields.empty
    show (members (fun key slots r => fields.memberOfText bound n key slots r) bound true
        fields.empty q >>= _).toOption = _
    rw [tabled, toOption_ofJson_object, Except.toOption_bind, hloop, hperm]
    cases fields.fill fields.empty (Text.tableOf (tabledEntries es)) with
    | error e => rfl
    | ok slots =>
      show (fields.complete slots >>= _).toOption =
        Option.map _ ((fields.complete slots).toOption.map build)
      cases fields.complete slots <;> rfl
  | digits hdigit hq =>
    split
    · next heq => exact absurd heq (cons_ne_of_isDigit hdigit rfl)
    · next heq => exact absurd heq (cons_ne_of_isDigit hdigit rfl)
    · rfl
  | _ => rfl

end

/-! ### All shapes

By induction on a shape and its fields together. Going into an array or object costs a level, on
both sides. -/

mutual

/-- A shape reads from a text what it reads from the value that is written there. -/
theorem Shape.agree (bound : Nat) : {α : Type} → (shape : Shape α) → (levels : Nat) →
    Agree bound levels (shape.ofText bound levels) shape.ofJson
  | _, .text, _ => agree_text "a string"
  | _, .path, _ => agree_text "path string"
  | _, .flag, _ => agree_flag
  | _, .count, _ => agree_count
  | _, .value, _ => agree_value
  | _, .table, _ => agree_table
  | _, .list item, _ => agree_list (item.agree bound)
  | _, .option inner, levels => agree_option (inner.agree bound levels)
  | _, .choice options, _ => agree_choice options
  | _, .record name fields build, _ =>
    agree_record name build (fields.membersAgree bound) (fields.rowsAgree bound)

theorem Fields.membersAgree (bound : Nat) : {σ β : Type} → (fields : Fields σ β) →
    (levels : Nat) → fields.MembersAgree bound levels
  | _, _, .nil, levels => by
    intro key slots t u w r _ hcolon hw _ hbound
    unfold Fields.memberOfText
    rw [hcolon]
    -- what is passed over here has been read as a value
    show (skip bound u >>= _).toOption = _
    rw [skip_of_written hw hbound]
    rfl
  | _, _, .cons k shape _ rest, levels => by
    rintro key ⟨slot, slots⟩ t u w r hvacant hcolon hw hdistinct hbound
    unfold Fields.memberOfText Fields.memberOfJson
    unfold Fields.Vacant at hvacant
    by_cases hk : key = k
    · rw [if_pos hk] at hvacant
      subst hvacant
      have hstep := shape.agree bound levels hw hdistinct hbound
      rw [if_pos hk, if_pos hk, hcolon]
      show (shape.ofText bound levels u >>= _).toOption =
        Option.map _ (shape.ofJson w.tabled >>= _).toOption
      rw [Except.toOption_bind, Except.toOption_bind, hstep]
      cases shape.ofJson w.tabled <;> rfl
    · rw [if_neg hk] at hvacant
      have hstep := rest.membersAgree bound levels hvacant hcolon hw hdistinct hbound
      rw [if_neg hk, if_neg hk, Except.toOption_bind, Except.toOption_bind, hstep]
      cases rest.memberOfJson key w.tabled slots <;> rfl

theorem Fields.rowsAgree (bound : Nat) : {σ β : Type} → (fields : Fields σ β) →
    (levels : Nat) → fields.RowsAgree bound levels
  | _, _, .nil, levels => by
    intro whole index n first t ws r h _ _
    cases h with
    | done hnext hclose =>
      show Option.map _ (closeArray t).toOption = _
      rw [hclose]
      rfl
    | more hnext _ _ =>
      obtain ⟨f, hopen⟩ := closeArray_of_some hnext
      show Option.map _ (closeArray t).toOption = _
      rw [hopen]
      rfl
  | _, _, .cons k shape absence rest, levels => by
    intro whole index n first t ws r h hdistinct hbound
    unfold Fields.elementsOfText
    cases h with
    | @done n _ _ _ hnext hclose =>
      have hrest := rest.rowsAgree bound levels whole (index + 1)
        (Items.done (n := n) hnext hclose) hdistinct hbound
      rw [hnext]
      show closedRow (absentElement absence index whole >>= _) =
        Option.map _ (fullRow (absentElement absence index whole >>= _))
      cases absentElement absence index whole with
      | error e => rfl
      | ok v => exact closedRow_cons_eq v hrest
    | @more n _ _ q w u ws _ hnext hw hitems =>
      obtain ⟨hd, hds⟩ := List.forall_mem_cons.mp hdistinct
      have hq := (length_nextElement_le hnext).trans hbound
      have hstep := shape.agree bound levels hw hd hq
      have hrest := rest.rowsAgree bound levels whole (index + 1) hitems hds
        ((length_written_lt hw).le.trans hq)
      rw [hnext]
      show closedRow (shape.ofText bound levels q >>= _) =
        Option.map _ (fullRow (shape.ofJson w.tabled >>= _))
      cases hv : shape.ofJson w.tabled with
      | error e =>
        rw [hv] at hstep
        cases htext : shape.ofText bound levels q with
        | error e' => rfl
        | ok p =>
          rw [htext] at hstep
          cases hstep
      | ok v =>
        rw [hv] at hstep
        rw [Except.toOption_eq_some_iff.mp hstep]
        exact closedRow_cons_eq v hrest

end

/-! ### Whole texts -/

/-- The text holds a value, and no object in it has a key twice. -/
def NoRepeatedKey (t : Text) : Prop :=
  ∃ w r, written (memberBound t) maxDepth t = .ok (w, r) ∧ w.keysDistinct = true

theorem parse_eq_ok_iff {t : Text} {v : Json} :
    parse t = .ok v ↔
      ∃ w r, written (memberBound t) maxDepth t = .ok (w, r) ∧ atEnd r = .ok () ∧ w.tabled = v := by
  unfold parse
  rw [read_eq]
  cases written (memberBound t) maxDepth t with
  | error e => simp [Except.map, bind, Except.bind]
  | ok p =>
    obtain ⟨w, r⟩ := p
    cases hend : atEnd r with
    | error e => simp [Except.map, bind, Except.bind, hend]
    | ok u => simp [Except.map, bind, Except.bind, hend, pure, Except.pure]

/-- **A shape reads a whole text as it reads the value that the text holds.** -/
theorem Shape.toOption_parse {α : Type} (shape : Shape α) {t : Text} {v : Json}
    (hv : Json.parse t = .ok v) (hkeys : NoRepeatedKey t) :
    (shape.parse t).toOption = (shape.ofJson v).toOption := by
  obtain ⟨w, r, hw, hend, rfl⟩ := parse_eq_ok_iff.mp hv
  obtain ⟨w', r', hw', hdistinct⟩ := hkeys
  cases hw.symm.trans hw'
  have hagree := shape.agree (memberBound t) maxDepth hw hdistinct (Nat.le_succ t.length)
  show (shape.ofText (memberBound t) maxDepth t >>= _).toOption = _
  rw [Except.toOption_bind, hagree]
  cases shape.ofJson w.tabled with
  | error e => rfl
  | ok x =>
    show (atEnd r >>= _).toOption = _
    rw [hend]
    rfl

end QueryValidator.Json
