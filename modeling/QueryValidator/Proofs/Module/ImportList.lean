import QueryValidator.Module.Import
import Mathlib.Data.List.Induction

/-!
# Members of an import list

What one insertion does to the entries and to the identifiers of an `ImportList`, and from it what
`insertAll` does: of the imports offered, the first of each identifier stays (`entries_insertAll`).
-/

namespace QueryValidator.ImportList

/-- An import is new unless its identifier is imported already. -/
theorem offer_fst (l : ImportList) (i : Import) : (l.offer i).1 = !l.contains i.ident := by
  unfold offer
  by_cases h : l.contains i.ident = true
  · rw [dif_pos h, h]
    rfl
  · rw [dif_neg h, Bool.eq_false_iff.mpr h]
    rfl

theorem insert_of_contains {l : ImportList} {i : Import} (h : l.contains i.ident = true) :
    l.insert i = l := by
  rw [insert, offer, dif_pos h]

theorem entries_insert (l : ImportList) (i : Import) :
    (l.insert i).entries = if l.contains i.ident then l.entries else l.entries ++ [i] := by
  by_cases h : l.contains i.ident = true
  · rw [insert_of_contains h, if_pos h]
  · rw [insert, offer, dif_neg h, if_neg h]

theorem contains_iff {l : ImportList} {ident : Text} :
    l.contains ident = true ↔ ∃ i ∈ l.entries, i.ident = ident := by
  simp [contains]

theorem mem_of_mem_insert {l : ImportList} {i j : Import} (h : j ∈ (l.insert i).entries) :
    j ∈ l.entries ∨ j = i := by
  rw [entries_insert] at h
  split_ifs at h
  · exact Or.inl h
  · simpa using h

theorem contains_insert {l : ImportList} {i : Import} {ident : Text} :
    (l.insert i).contains ident = true ↔ l.contains ident = true ∨ i.ident = ident := by
  rw [contains_iff, contains_iff, entries_insert]
  by_cases h : l.contains i.ident = true
  · rw [if_pos h]
    constructor
    · exact Or.inl
    · rintro (hm | rfl)
      · exact hm
      · exact contains_iff.mp h
  · rw [if_neg h]
    constructor
    · rintro ⟨j, hj, rfl⟩
      rcases List.mem_append.mp hj with hj | hj
      · exact Or.inl ⟨j, hj, rfl⟩
      · exact Or.inr (by rw [List.mem_singleton.mp hj])
    · rintro (⟨j, hj, rfl⟩ | rfl)
      · exact ⟨j, List.mem_append_left _ hj, rfl⟩
      · exact ⟨i, by simp, rfl⟩

@[simp] theorem insertAll_nil (l : ImportList) : l.insertAll [] = l := rfl

theorem insertAll_cons (l : ImportList) (i : Import) (is : List Import) :
    l.insertAll (i :: is) = (l.insert i).insertAll is := rfl

theorem insertAll_append (l : ImportList) (is js : List Import) :
    l.insertAll (is ++ js) = (l.insertAll is).insertAll js :=
  List.foldl_append

theorem insertAll_append_singleton (l : ImportList) (is : List Import) (i : Import) :
    l.insertAll (is ++ [i]) = (l.insertAll is).insert i :=
  insertAll_append l is [i]

/-- Nothing is in the list that was not in it before or offered. -/
theorem mem_of_mem_insertAll {l : ImportList} {is : List Import} {j : Import}
    (h : j ∈ (l.insertAll is).entries) : j ∈ l.entries ∨ j ∈ is := by
  induction is generalizing l with
  | nil => exact Or.inl h
  | cons i is ih =>
    rcases ih (l := l.insert i) h with hj | hj
    · rcases mem_of_mem_insert hj with hj | rfl
      · exact Or.inl hj
      · exact Or.inr List.mem_cons_self
    · exact Or.inr (List.mem_cons_of_mem _ hj)

theorem mem_of_mem_insertAll_empty {is : List Import} {j : Import}
    (h : j ∈ (empty.insertAll is).entries) : j ∈ is :=
  (mem_of_mem_insertAll h).resolve_left List.not_mem_nil

/-- Every identifier offered is imported afterwards, and no other is new. -/
theorem contains_insertAll {l : ImportList} {is : List Import} {ident : Text} :
    (l.insertAll is).contains ident = true ↔
      l.contains ident = true ∨ ∃ i ∈ is, i.ident = ident := by
  induction is generalizing l with
  | nil => simp
  | cons i is ih =>
    rw [insertAll_cons, ih, contains_insert, or_assoc]
    simp

theorem contains_insertAll_empty {is : List Import} {ident : Text} :
    (empty.insertAll is).contains ident = true ↔ ∃ i ∈ is, i.ident = ident :=
  contains_insertAll.trans (or_iff_right Bool.false_ne_true)

theorem entries_insertAll_loop (l : ImportList) (is : List Import) :
    (l.insertAll is).entries =
      List.eraseDupsBy.loop (fun i j => i.ident == j.ident) is l.entries.reverse := by
  induction is generalizing l with
  | nil => exact l.entries.reverse_reverse.symm
  | cons i is ih =>
    have hknown : (l.entries.reverse.any fun j => i.ident == j.ident) = l.contains i.ident := by
      rw [List.any_reverse]
      exact congrArg _ (funext fun j => Bool.beq_comm)
    rw [insertAll_cons, ih, entries_insert, List.eraseDupsBy.loop, hknown]
    cases l.contains i.ident <;> simp

/-- Of the imports offered, those stay whose identifier no earlier one has. -/
theorem entries_insertAll (is : List Import) :
    (empty.insertAll is).entries = is.eraseDupsBy fun i j => i.ident == j.ident :=
  entries_insertAll_loop empty is

/-- The identifiers offered are imported in the order in which they first occur. -/
theorem map_ident_insertAll (is : List Import) :
    (empty.insertAll is).entries.map Import.ident = (is.map Import.ident).eraseDups := by
  induction is using List.reverseRecOn with
  | nil => rfl
  | append_singleton is i ih =>
    have hknown : (empty.insertAll is).contains i.ident = true ↔ ∃ j ∈ is, j.ident = i.ident :=
      contains_insertAll_empty
    rw [insertAll_append_singleton, entries_insert, List.map_append, List.eraseDups_append, ← ih, List.map_singleton]
    by_cases h : (empty.insertAll is).contains i.ident = true
    · have hnone : [i.ident].removeAll (is.map Import.ident) = [] := by
        simpa [List.removeAll] using hknown.mp h
      rw [if_pos h, hnone, List.eraseDups_nil, List.append_nil]
    · have hnew : [i.ident].removeAll (is.map Import.ident) = [i.ident] := by
        simpa [List.removeAll] using mt hknown.mpr h
      rw [if_neg h, hnew, List.map_append]
      rfl

end QueryValidator.ImportList
