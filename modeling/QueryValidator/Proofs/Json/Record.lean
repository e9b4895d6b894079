import QueryValidator.Json.Shape
import QueryValidator.Proofs.Steps
import QueryValidator.Proofs.Text.Table

/-!
# The members of a record

A member fills the field of its key and leaves the others as they are, so that members of different
keys may come in any order; a member that is no field changes nothing.
-/

namespace QueryValidator.Json

namespace Fields

/-- The keys of the fields in their declared order. -/
def keys : {σ β : Type} → Fields σ β → List Text
  | _, _, .nil => []
  | _, _, .cons key _ _ rest => key :: rest.keys

/-- No field of that key has been seen. -/
def Vacant : {σ β : Type} → Fields σ β → (key : Text) → σ → Prop
  | _, _, .nil, _, _ => True
  | _, _, .cons k _ _ rest, key, (slot, slots) =>
    if key = k then slot = none else rest.Vacant key slots

theorem vacant_empty : {σ β : Type} → (fields : Fields σ β) → (key : Text) →
    fields.Vacant key fields.empty
  | _, _, .nil, _ => trivial
  | _, _, .cons k _ _ rest, key => by
    by_cases h : key = k
    · exact (if_pos h).mpr rfl
    · exact (if_neg h).mpr (rest.vacant_empty key)

section

variable {α σ β : Type} {k : Text} {shape : Shape α} {absence : Absence α} {rest : Fields σ β}

theorem memberOfJson_cons_self (v : Json) (slot : Option α) (slots : σ) :
    (cons k shape absence rest).memberOfJson k v (slot, slots) =
      (shape.ofJson v).map fun x => (some x, slots) := by
  rw [memberOfJson, if_pos rfl]
  cases shape.ofJson v <;> rfl

theorem memberOfJson_cons_of_ne {key : Text} (h : key ≠ k) (v : Json) (slot : Option α)
    (slots : σ) :
    (cons k shape absence rest).memberOfJson key v (slot, slots) =
      (rest.memberOfJson key v slots).map fun slots' => (slot, slots') := by
  rw [memberOfJson, if_neg h]
  cases rest.memberOfJson key v slots <;> rfl

end

/-- An unknown member is passed over. -/
theorem memberOfJson_of_notMem : {σ β : Type} → (fields : Fields σ β) → {key : Text} →
    key ∉ fields.keys → (v : Json) → (slots : σ) → fields.memberOfJson key v slots = .ok slots
  | _, _, .nil, _, _, _, _ => rfl
  | _, _, .cons k _ _ rest, key, h, v, (slot, slots) => by
    obtain ⟨hk, hrest⟩ := not_or.mp (List.mem_cons.not.mp h)
    rw [memberOfJson_cons_of_ne hk, rest.memberOfJson_of_notMem hrest v slots]
    rfl

/-- A member leaves the fields of other keys as they are. -/
theorem vacant_of_memberOfJson : {σ β : Type} → (fields : Fields σ β) → {key key' : Text} →
    {v : Json} → {slots slots' : σ} → key' ≠ key → fields.Vacant key' slots →
    fields.memberOfJson key v slots = .ok slots' → fields.Vacant key' slots'
  | _, _, .nil, _, _, _, _, _, _, _, _ => trivial
  | _, _, .cons k shape _ rest, key, key', v, (slot, slots), slots', hne, hvacant, h => by
    unfold Vacant at hvacant ⊢
    by_cases hk : key = k
    · subst hk
      rw [memberOfJson_cons_self] at h
      obtain ⟨x, hx, rfl⟩ := Except.map_eq_ok_iff.mp h
      rw [if_neg hne] at hvacant ⊢
      exact hvacant
    · rw [memberOfJson_cons_of_ne hk] at h
      obtain ⟨slots'', hslots, rfl⟩ := Except.map_eq_ok_iff.mp h
      split_ifs at hvacant ⊢
      · exact hvacant
      · exact rest.vacant_of_memberOfJson hne hvacant hslots

/-- The member of the first field may come before or after one of another field. -/
theorem memberOfJson_comm_self {α σ β : Type} {k key : Text} {shape : Shape α}
    {absence : Absence α} {rest : Fields σ β} (h : key ≠ k) (v w : Json) (slots : Option α × σ) :
    ((cons k shape absence rest).memberOfJson k v slots >>=
        (cons k shape absence rest).memberOfJson key w).toOption =
      ((cons k shape absence rest).memberOfJson key w slots >>=
        (cons k shape absence rest).memberOfJson k v).toOption := by
  obtain ⟨slot, slots⟩ := slots
  rw [memberOfJson_cons_self, memberOfJson_cons_of_ne h]
  cases hx : shape.ofJson v with
  | error e =>
    cases rest.memberOfJson key w slots with
    | error e' => rfl
    | ok slots' =>
      show none = ((cons k shape absence rest).memberOfJson k v (slot, slots')).toOption
      rw [memberOfJson_cons_self, hx]
      rfl
  | ok x =>
    show ((cons k shape absence rest).memberOfJson key w (some x, slots)).toOption = _
    rw [memberOfJson_cons_of_ne h]
    cases rest.memberOfJson key w slots with
    | error e' => rfl
    | ok slots' =>
      show _ = ((cons k shape absence rest).memberOfJson k v (slot, slots')).toOption
      rw [memberOfJson_cons_self, hx]
      rfl

/-- Members of different keys may come in either order. -/
theorem memberOfJson_comm : {σ β : Type} → (fields : Fields σ β) → {key key' : Text} →
    key ≠ key' → (v v' : Json) → (slots : σ) →
    (fields.memberOfJson key v slots >>= fields.memberOfJson key' v').toOption =
      (fields.memberOfJson key' v' slots >>= fields.memberOfJson key v).toOption
  | _, _, .nil, _, _, _, _, _, _ => rfl
  | _, _, .cons k shape absence rest, key, key', hne, v, v', (slot, slots) => by
    by_cases hk : key = k
    · subst hk
      exact memberOfJson_comm_self hne.symm v v' (slot, slots)
    · by_cases hk' : key' = k
      · subst hk'
        exact (memberOfJson_comm_self hne v' v (slot, slots)).symm
      · have hrest := rest.memberOfJson_comm hne v v' slots
        have hstep : ∀ (x : Except Fault _) {q : Text} (hq : q ≠ k) (w : Json),
            (x.map (Prod.mk slot) >>= (cons k shape absence rest).memberOfJson q w).toOption =
              (x >>= rest.memberOfJson q w).toOption.map (Prod.mk slot) := by
          intro x q hq w
          cases x with
          | error e => rfl
          | ok slots' =>
            show ((cons k shape absence rest).memberOfJson q w (slot, slots')).toOption = _
            rw [memberOfJson_cons_of_ne hq, Except.toOption_map]
            rfl
        rw [memberOfJson_cons_of_ne hk, memberOfJson_cons_of_ne hk', hstep _ hk', hstep _ hk, hrest]

/-- The fields after some members, one after the other. -/
def fill {σ β : Type} (fields : Fields σ β) (slots : σ) (ms : List (Text × Json)) :
    Except Fault σ :=
  ms.foldlM (fun slots (key, v) => fields.memberOfJson key v slots) slots

/-- Where no key is given twice, the order of the members does not matter. -/
theorem toOption_fill_of_perm {σ β : Type} (fields : Fields σ β) {ms ms' : List (Text × Json)}
    (h : ms.Perm ms') (hnodup : (ms.map Prod.fst).Nodup) (slots : σ) :
    (fields.fill slots ms).toOption = (fields.fill slots ms').toOption := by
  refine Except.toOption_foldlM_of_perm h (fun m hm m' hm' s => ?_) slots
  by_cases hkey : m.1 = m'.1
  · rw [List.inj_on_of_nodup_map hnodup hm hm' hkey]
  · exact fields.memberOfJson_comm hkey m.2 m'.2 s

/-- A member of a new key may be read after all others. -/
theorem toOption_fill_setKey {σ β : Type} (fields : Fields σ β) {ms : List (Text × Json)}
    {key : Text} (hnodup : (ms.map Prod.fst).Nodup) (hnew : key ∉ ms.map Prod.fst) (v : Json)
    (slots : σ) :
    (fields.fill slots (Text.setKey key v ms)).toOption =
      (fields.fill slots ms).toOption.bind fun slots =>
        (fields.memberOfJson key v slots).toOption := by
  have hset := Text.setKey_perm hnew v
  have hlast := hset.trans (List.perm_append_singleton (key, v) ms).symm
  have hkeys : ((Text.setKey key v ms).map Prod.fst).Nodup :=
    (hset.map Prod.fst).nodup_iff.mpr (List.nodup_cons.mpr ⟨hnew, hnodup⟩)
  rw [fields.toOption_fill_of_perm hlast hkeys, fill, List.foldlM_append, Except.toOption_bind]
  refine congrArg (Option.bind _) (funext fun s => ?_)
  show (fields.memberOfJson key v s >>= _).toOption = _
  cases fields.memberOfJson key v s <;> rfl

end Fields

/-! ### Records -/

/-- The row that is read from the front of a list, if nothing is left of the list. -/
def fullRow {β : Type} (x : Except Fault (β × List Json)) : Option β :=
  x.toOption.bind fun (row, left) => if left.isEmpty then some row else none

theorem fullRow_cons {β γ : Type} (v : γ) (x : Except Fault (β × List Json)) :
    fullRow (x >>= fun (row, left) => pure ((v, row), left)) = (fullRow x).map (Prod.mk v) := by
  cases x with
  | error e => rfl
  | ok p =>
    obtain ⟨row, left⟩ := p
    cases left <;> rfl

section

variable {α σ β : Type} {name : Text} {fields : Fields σ β} {build : β → α}

theorem toOption_ofJson_object (ms : List (Text × Json)) :
    ((Shape.record name fields build).ofJson (.object ms)).toOption =
      (fields.fill fields.empty ms).toOption.bind fun slots =>
        (fields.complete slots).toOption.map build := by
  show (fields.fill fields.empty ms >>= _).toOption = _
  rw [Except.toOption_bind]
  refine congrArg (Option.bind _) (funext fun slots => ?_)
  show (fields.complete slots >>= _).toOption = _
  cases fields.complete slots <;> rfl

theorem toOption_ofJson_array (vs : List Json) :
    ((Shape.record name fields build).ofJson (.array vs)).toOption =
      (fullRow (fields.elementsOfJson (recordText name fields.size) 0 vs)).map build := by
  show (fields.elementsOfJson (recordText name fields.size) 0 vs >>= _).toOption = _
  cases fields.elementsOfJson (recordText name fields.size) 0 vs with
  | error e => rfl
  | ok p =>
    obtain ⟨row, left⟩ := p
    cases left <;> rfl

end

end QueryValidator.Json
