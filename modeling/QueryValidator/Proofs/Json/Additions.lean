import QueryValidator.Proofs.Json.Record
import Mathlib.Logic.Relation

/-!
# Members that a shape does not know

`Shape.Adds` puts one member that a record does not have into an object that is read as that record,
anywhere inside of a value. What the shape reads stays the same (`Shape.Adds.toOption_ofJson`).
-/

namespace QueryValidator.Json

/-- The field that a member fills, with its shape: the first of its key. -/
inductive Fields.Declares {α : Type} (key : Text) (shape : Shape α) :
    {σ β : Type} → Fields σ β → Prop
  | head {σ β} {absence : Absence α} {rest : Fields σ β} :
      Declares key shape (.cons key shape absence rest)
  | tail {γ σ β k} {other : Shape γ} {absence : Absence γ} {rest : Fields σ β} (hne : key ≠ k)
      (h : Declares key shape rest) : Declares key shape (.cons k other absence rest)

/-- The field at a place, with its shape. -/
inductive Fields.HasAt {α : Type} (shape : Shape α) :
    (place : Nat) → {σ β : Type} → Fields σ β → Prop
  | head {σ β k} {absence : Absence α} {rest : Fields σ β} :
      HasAt shape 0 (.cons k shape absence rest)
  | tail {γ σ β k place} {other : Shape γ} {absence : Absence γ} {rest : Fields σ β}
      (h : HasAt shape place rest) : HasAt shape (place + 1) (.cons k other absence rest)

/-- The second value is the first with one more member, in an object that is read as a record which
does not have that member. -/
inductive Shape.Adds : {α : Type} → Shape α → Json → Json → Prop
  | here {α σ β : Type} {name : Text} {fields : Fields σ β} {build : β → α}
      {ms : List (Text × Json)} (key : Text) (v : Json) (hkey : key ∉ fields.keys) :
      Adds (.record name fields build) (.object ms) (.object (Text.setKey key v ms))
  | member {α γ σ β : Type} {name : Text} {fields : Fields σ β} {build : β → α} {shape : Shape γ}
      (before : List (Text × Json)) {after : List (Text × Json)} {key : Text} {v v' : Json}
      (hfield : fields.Declares key shape) (h : Adds shape v v') :
      Adds (.record name fields build) (.object (before ++ (key, v) :: after))
        (.object (before ++ (key, v') :: after))
  | element {α γ σ β : Type} {name : Text} {fields : Fields σ β} {build : β → α} {shape : Shape γ}
      (before : List Json) {after : List Json} {v v' : Json}
      (hfield : fields.HasAt shape before.length) (h : Adds shape v v') :
      Adds (.record name fields build) (.array (before ++ v :: after))
        (.array (before ++ v' :: after))
  | item {α : Type} {shape : Shape α} (before : List Json) {after : List Json} {v v' : Json}
      (h : Adds shape v v') :
      Adds (.list shape) (.array (before ++ v :: after)) (.array (before ++ v' :: after))
  | option {α : Type} {shape : Shape α} {v v' : Json} (h : Adds shape v v') :
      Adds (.option shape) v v'

namespace Fields

/-- Members that are no fields may be left out. -/
theorem fill_filter_keys {σ β : Type} (fields : Fields σ β) (slots : σ) (ms : List (Text × Json)) :
    fields.fill slots (ms.filter fun m => m.1 ∈ fields.keys) = fields.fill slots ms := by
  induction ms generalizing slots with
  | nil => rfl
  | cons m ms ih =>
    obtain ⟨key, v⟩ := m
    have hcons : ∀ rest, fields.fill slots ((key, v) :: rest) =
        fields.memberOfJson key v slots >>= fun slots => fields.fill slots rest := fun _ => rfl
    by_cases hkey : key ∈ fields.keys
    · rw [List.filter_cons_of_pos (by simpa using hkey), hcons, hcons]
      simp only [ih]
    · rw [List.filter_cons_of_neg (by simpa using hkey), hcons,
        fields.memberOfJson_of_notMem hkey v slots, ih]
      rfl

theorem fill_setKey {σ β : Type} (fields : Fields σ β) {key : Text} (hkey : key ∉ fields.keys)
    (slots : σ) (v : Json) (ms : List (Text × Json)) :
    fields.fill slots (Text.setKey key v ms) = fields.fill slots ms := by
  have hpick : ∀ w : Json, decide ((key, w).1 ∈ fields.keys) = false := fun _ =>
    decide_eq_false hkey
  rw [← fields.fill_filter_keys slots (Text.setKey key v ms), Text.filter_setKey hpick,
    fields.fill_filter_keys]

variable {γ : Type} {shape : Shape γ} {v v' : Json}

theorem Declares.toOption_memberOfJson {key : Text} {σ β : Type} {fields : Fields σ β}
    (h : fields.Declares key shape)
    (hshape : (shape.ofJson v).toOption = (shape.ofJson v').toOption) (slots : σ) :
    (fields.memberOfJson key v slots).toOption = (fields.memberOfJson key v' slots).toOption := by
  induction h with
  | head =>
    obtain ⟨slot, slots⟩ := slots
    rw [memberOfJson_cons_self, memberOfJson_cons_self, Except.toOption_map, hshape,
      Except.toOption_map]
  | tail hne h ih =>
    obtain ⟨slot, slots⟩ := slots
    rw [memberOfJson_cons_of_ne hne, memberOfJson_cons_of_ne hne, Except.toOption_map, ih slots,
      Except.toOption_map]

theorem HasAt.toOption_elementsOfJson {before after : List Json} {σ β : Type} {fields : Fields σ β}
    (h : fields.HasAt shape before.length)
    (hshape : (shape.ofJson v).toOption = (shape.ofJson v').toOption) (whole : Text) (index : Nat) :
    (fields.elementsOfJson whole index (before ++ v :: after)).toOption =
      (fields.elementsOfJson whole index (before ++ v' :: after)).toOption := by
  generalize hplace : before.length = place at h
  induction h generalizing before index with
  | head =>
    cases List.eq_nil_of_length_eq_zero hplace
    unfold elementsOfJson
    show (shape.ofJson v >>= _).toOption = (shape.ofJson v' >>= _).toOption
    rw [Except.toOption_bind, Except.toOption_bind, hshape]
  | tail h ih =>
    cases before with
    | nil => cases hplace
    | cons b before =>
      unfold elementsOfJson
      show (Shape.ofJson _ b >>= fun x => _ >>= _).toOption =
        (Shape.ofJson _ b >>= fun x => _ >>= _).toOption
      simp only [List.append_eq, Except.toOption_bind, ih (index + 1) (Nat.succ.inj hplace)]

end Fields

/-- A value with one more member is no `null`, before and after. -/
theorem Shape.Adds.ne_null {α : Type} {shape : Shape α} {v v' : Json} (h : shape.Adds v v') :
    v ≠ .null ∧ v' ≠ .null := by
  induction h with
  | option h ih => exact ih
  | _ => exact ⟨nofun, nofun⟩

theorem ofJson_option {α : Type} {inner : Shape α} {v : Json} (h : v ≠ .null) :
    (Shape.option inner).ofJson v = (inner.ofJson v).map some := by
  cases v with
  | null => exact absurd rfl h
  | _ => rfl

/-- **A member that a record does not have changes nothing in what is read.** -/
theorem Shape.Adds.toOption_ofJson {α : Type} {shape : Shape α} {v v' : Json}
    (h : shape.Adds v v') : (shape.ofJson v).toOption = (shape.ofJson v').toOption := by
  induction h with
  | @here _ _ _ _ fields _ _ _ _ hkey =>
    rw [toOption_ofJson_object, toOption_ofJson_object, fields.fill_setKey hkey]
  | @member _ _ _ _ _ fields _ _ before after key v v' hfield h ih =>
    rw [toOption_ofJson_object, toOption_ofJson_object]
    have hfill : (fields.fill fields.empty (before ++ (key, v) :: after)).toOption =
        (fields.fill fields.empty (before ++ (key, v') :: after)).toOption := by
      unfold Fields.fill
      rw [List.foldlM_append, List.foldlM_append, Except.toOption_bind, Except.toOption_bind]
      refine congrArg (Option.bind _) (funext fun slots => ?_)
      rw [List.foldlM_cons, List.foldlM_cons, Except.toOption_bind, Except.toOption_bind,
        hfield.toOption_memberOfJson ih]
    rw [hfill]
  | element before hfield h ih =>
    rw [toOption_ofJson_array, toOption_ofJson_array, fullRow, fullRow,
      hfield.toOption_elementsOfJson ih]
  | @item _ shape before after v v' h ih =>
    show (List.mapM shape.ofJson (before ++ v :: after)).toOption =
      (List.mapM shape.ofJson (before ++ v' :: after)).toOption
    simp only [List.mapM_append, List.mapM_cons, Except.toOption_bind, ih]
  | option h ih =>
    obtain ⟨hv, hv'⟩ := h.ne_null
    rw [ofJson_option hv, ofJson_option hv', Except.toOption_map, ih, Except.toOption_map]

/-- Nor do any number of them, anywhere in the value. -/
theorem Shape.toOption_ofJson_of_reflTransGen {α : Type} {shape : Shape α} {v v' : Json}
    (h : Relation.ReflTransGen shape.Adds v v') :
    (shape.ofJson v).toOption = (shape.ofJson v').toOption := by
  induction h with
  | refl => rfl
  | tail _ hstep ih => exact ih.trans hstep.toOption_ofJson

end QueryValidator.Json
