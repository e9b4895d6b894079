import QueryValidator.Text

/-!
# Tables

A `Table` has values under keys that are sorted and distinct, whatever entries it is made of.
-/

namespace QueryValidator.Text

variable {α : Type}

theorem mem_of_mem_setKey {key : Text} {v : α} {table : List (Text × α)} {p : Text × α}
    (h : p ∈ setKey key v table) : p = (key, v) ∨ p ∈ table := by
  induction table with
  | nil => exact Or.inl (List.mem_singleton.mp h)
  | cons q r ih =>
    obtain ⟨k, w⟩ := q
    unfold setKey at h
    split at h
    · next heq =>
      rcases List.mem_cons.mp h with rfl | h
      · exact Or.inl (by rw [heq])
      · exact Or.inr (List.mem_cons_of_mem _ h)
    · split at h
      · exact List.mem_cons.mp h
      · rcases List.mem_cons.mp h with rfl | h
        · exact Or.inr List.mem_cons_self
        · exact (ih h).imp_right (List.mem_cons_of_mem _)

/-- Setting a key keeps a table sorted. -/
theorem pairwise_setKey {key : Text} {v : α} {table : List (Text × α)}
    (h : table.Pairwise fun e f => e.1 < f.1) :
    (setKey key v table).Pairwise fun e f => e.1 < f.1 := by
  induction table with
  | nil => exact List.pairwise_singleton _ _
  | cons p r ih =>
    obtain ⟨k, w⟩ := p
    obtain ⟨hk, hr⟩ := List.pairwise_cons.mp h
    unfold setKey
    split
    · exact List.pairwise_cons.mpr ⟨hk, hr⟩
    · next hne =>
      split
      · next hlt =>
        refine List.pairwise_cons.mpr ⟨fun e he => ?_, h⟩
        rcases List.mem_cons.mp he with rfl | he
        · exact hlt
        · exact Std.lt_trans hlt (hk e he)
      · next hge =>
        refine List.pairwise_cons.mpr ⟨fun e he => ?_, ih hr⟩
        rcases mem_of_mem_setKey he with rfl | he
        · exact Std.lt_of_le_of_ne (Std.not_lt.mp hge) (Ne.symm hne)
        · exact hk e he

structure Table (α : Type) where
  entries : List (Text × α)
  /-- The keys are sorted, so none of them occurs twice. -/
  sorted : entries.Pairwise fun e f => e.1 < f.1

namespace Table

def empty : Table α := ⟨[], .nil⟩

def set (t : Table α) (key : Text) (v : α) : Table α :=
  ⟨setKey key v t.entries, pairwise_setKey t.sorted⟩

/-- The table with the given entries; the last value given for a key stands. -/
def ofEntries (entries : List (Text × α)) : Table α :=
  entries.foldl (fun t (key, v) => t.set key v) empty

end Table

end QueryValidator.Text
