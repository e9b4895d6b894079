import QueryValidator.Text.Table
import Mathlib.Data.Char
import Mathlib.Data.List.Induction
import Mathlib.Data.List.Lex
import Mathlib.Data.List.Sort

/-!
# Tables and sets

What is in a table after `setKey`, and from it what is in the table of some entries: each key has
the value of its last entry.  A sorted set has the members of the list that it is made of, each once
and in the order of the code points, so it is told by them.
-/

namespace QueryValidator.Text

variable {α : Type}

/-! ### Entries -/

/-- A table has no entries but those that it is made of. -/
theorem mem_of_mem_tableOf {entries : List (Text × α)} {p : Text × α} (h : p ∈ tableOf entries) :
    p ∈ entries := by
  have hall : ∀ q ∈ tableOf entries, q ∈ entries := by
    unfold tableOf
    refine List.foldlRecOn (motive := fun acc => ∀ q ∈ acc, q ∈ entries) entries _ ?_ ?_
    · exact fun q hq => absurd hq List.not_mem_nil
    · intro acc hacc e he q hq
      rcases mem_of_mem_setKey hq with rfl | hq
      · exact he
      · exact hacc q hq
  exact hall p h

theorem tableOf_append_singleton (entries : List (Text × α)) (key : Text) (v : α) :
    tableOf (entries ++ [(key, v)]) = setKey key v (tableOf entries) := by
  unfold tableOf
  rw [List.foldl_append]
  rfl

/-- A new key is one more entry. -/
theorem setKey_perm {key : Text} {table : List (Text × α)} (h : key ∉ table.map Prod.fst) (v : α) :
    (setKey key v table).Perm ((key, v) :: table) := by
  induction table with
  | nil => exact .refl _
  | cons p r ih =>
    obtain ⟨hne, hr⟩ := not_or.mp (List.mem_cons.not.mp h)
    unfold setKey
    rw [if_neg hne]
    split_ifs
    · exact .refl _
    · exact ((ih hr).cons p).trans (.swap (key, v) p r)

/-- Where no key is given twice, a table has the entries that it is made of. -/
theorem tableOf_perm {entries : List (Text × α)} (h : (entries.map Prod.fst).Nodup) :
    (tableOf entries).Perm entries := by
  induction entries using List.reverseRecOn with
  | nil => exact .refl _
  | append_singleton entries p ih =>
    obtain ⟨key, v⟩ := p
    rw [List.map_append, List.map_singleton, List.nodup_append] at h
    obtain ⟨hentries, -, hdisjoint⟩ := h
    have hperm := ih hentries
    have hkey : key ∉ (tableOf entries).map Prod.fst := fun hmem =>
      hdisjoint key ((hperm.map Prod.fst).mem_iff.mp hmem) key (List.mem_singleton_self key) rfl
    rw [tableOf_append_singleton]
    exact ((setKey_perm hkey v).trans (hperm.cons (key, v))).trans
      (List.perm_append_singleton (key, v) entries).symm

/-- What is picked from a table without a key is the same after that key is set. -/
theorem filter_setKey {pick : Text × α → Bool} {key : Text} (h : ∀ v, pick (key, v) = false)
    (v : α) (table : List (Text × α)) : (setKey key v table).filter pick = table.filter pick := by
  induction table with
  | nil => exact List.filter_cons_of_neg (Bool.eq_false_iff.mp (h v))
  | cons p r ih =>
    obtain ⟨k, w⟩ := p
    unfold setKey
    split_ifs with heq hlt
    · subst heq
      rw [List.filter_cons_of_neg (Bool.eq_false_iff.mp (h v)),
        List.filter_cons_of_neg (Bool.eq_false_iff.mp (h w))]
    · exact List.filter_cons_of_neg (Bool.eq_false_iff.mp (h v))
    · rw [List.filter_cons, ih, List.filter_cons]

/-! ### Values of keys -/

theorem lookup_cons_ite (key k : Text) (v : α) (table : List (Text × α)) :
    ((k, v) :: table).lookup key = if key = k then some v else table.lookup key := by
  by_cases h : key = k
  · subst h
    rw [List.lookup_cons_self, if_pos rfl]
  · have hne : (key == k) = false := beq_eq_false_iff_ne.mpr h
    rw [List.lookup_cons, hne, if_neg h]

theorem lookup_setKey (key k : Text) (v : α) (table : List (Text × α)) :
    (setKey k v table).lookup key = if key = k then some v else table.lookup key := by
  induction table with
  | nil => exact lookup_cons_ite key k v []
  | cons p r ih =>
    obtain ⟨k', w⟩ := p
    by_cases heq : k = k'
    · rw [setKey, if_pos heq, lookup_cons_ite, lookup_cons_ite, heq]
      by_cases hkey : key = k'
      · rw [if_pos hkey, if_pos hkey]
      · rw [if_neg hkey, if_neg hkey, if_neg hkey]
    · by_cases hlt : k < k'
      · rw [setKey, if_neg heq, if_pos hlt, lookup_cons_ite]
      · rw [setKey, if_neg heq, if_neg hlt, lookup_cons_ite, ih, lookup_cons_ite]
        by_cases hkey : key = k'
        · rw [if_pos hkey, if_pos hkey, if_neg (hkey ▸ Ne.symm heq)]
        · rw [if_neg hkey, if_neg hkey]

/-- The last entry of a key stands in the table. -/
theorem lookup_tableOf (entries : List (Text × α)) (key : Text) :
    (tableOf entries).lookup key = entries.reverse.lookup key := by
  induction entries using List.reverseRecOn with
  | nil => rfl
  | append_singleton entries p ih =>
    obtain ⟨k, v⟩ := p
    rw [tableOf_append_singleton, lookup_setKey, ih, List.reverse_append, List.reverse_singleton,
      List.singleton_append, lookup_cons_ite]

/-- A key that has one value among the entries has it in the table. -/
theorem lookup_tableOf_eq_some {entries : List (Text × α)} {key : Text} {v : α}
    (hmem : (key, v) ∈ entries) (hone : ∀ w, (key, w) ∈ entries → w = v) :
    (tableOf entries).lookup key = some v := by
  rw [lookup_tableOf]
  cases hl : entries.reverse.lookup key with
  | none =>
    have hnot := List.lookup_eq_none_iff.mp hl (key, v) (List.mem_reverse.mpr hmem)
    exact absurd hnot (by simp)
  | some w =>
    obtain ⟨l₁, l₂, heq, -⟩ := List.lookup_eq_some_iff.mp hl
    have hw : (key, w) ∈ entries := List.mem_reverse.mp (by rw [heq]; simp)
    rw [hone w hw]

/-- Where no key has two values, the order of the entries does not matter. -/
theorem lookup_tableOf_of_perm {entries entries' : List (Text × α)} (h : entries.Perm entries')
    (hone : ∀ key v w, (key, v) ∈ entries → (key, w) ∈ entries → v = w) (key : Text) :
    (tableOf entries).lookup key = (tableOf entries').lookup key := by
  by_cases hkey : ∃ v, (key, v) ∈ entries
  · obtain ⟨v, hv⟩ := hkey
    rw [lookup_tableOf_eq_some hv fun w hw => hone key w v hw hv]
    exact (lookup_tableOf_eq_some (h.mem_iff.mp hv) fun w hw =>
      hone key w v (h.mem_iff.mpr hw) hv).symm
  · have hnone : ∀ es : List (Text × α), es.Perm entries → (tableOf es).lookup key = none := by
      intro es hes
      rw [List.lookup_eq_none_iff]
      rintro ⟨k, v⟩ hp
      rw [bne_iff_ne]
      rintro rfl
      exact hkey ⟨v, hes.mem_iff.mp (mem_of_mem_tableOf hp)⟩
    rw [hnone entries (.refl _), hnone entries' h.symm]

/-! ### Sorted entries -/

theorem setKey_of_lt {key : Text} {table : List (Text × α)} (h : ∀ e ∈ table, e.1 < key) (v : α) :
    setKey key v table = table ++ [(key, v)] := by
  induction table with
  | nil => rfl
  | cons p r ih =>
    obtain ⟨hp, hr⟩ := List.forall_mem_cons.mp h
    obtain ⟨k, w⟩ := p
    rw [setKey, if_neg hp.ne', if_neg hp.asymm, ih hr, List.cons_append]

/-- Entries that are sorted already are their own table. -/
theorem tableOf_of_sorted {entries : List (Text × α)}
    (h : entries.Pairwise fun e f => e.1 < f.1) : tableOf entries = entries := by
  induction entries using List.reverseRecOn with
  | nil => rfl
  | append_singleton entries p ih =>
    obtain ⟨hentries, -, hlast⟩ := List.pairwise_append.mp h
    rw [tableOf_append_singleton, ih hentries,
      setKey_of_lt fun e he => hlast e he p (List.mem_singleton_self p)]

namespace Table

@[ext] theorem ext {t u : Table α} (h : t.entries = u.entries) : t = u := by
  cases t
  cases u
  cases h
  rfl

theorem keys_nodup (t : Table α) : (t.entries.map Prod.fst).Nodup :=
  List.pairwise_map.mpr (t.sorted.imp fun h => h.ne)

theorem ofEntries_append_singleton (entries : List (Text × α)) (key : Text) (v : α) :
    ofEntries (entries ++ [(key, v)]) = (ofEntries entries).set key v := by
  unfold ofEntries
  rw [List.foldl_append]
  rfl

theorem entries_ofEntries (entries : List (Text × α)) :
    (ofEntries entries).entries = tableOf entries := by
  induction entries using List.reverseRecOn with
  | nil => rfl
  | append_singleton entries p ih =>
    rw [ofEntries_append_singleton, tableOf_append_singleton, ← ih]
    rfl

/-- The entries of a table make the same table again. -/
theorem ofEntries_tableOf (entries : List (Text × α)) :
    ofEntries (tableOf entries) = ofEntries entries := by
  ext1
  rw [← entries_ofEntries entries, entries_ofEntries]
  exact tableOf_of_sorted (ofEntries entries).sorted

end Table

/-! ### Sets -/

theorem mem_insertSorted {t u : Text} {ts : List Text} :
    u ∈ insertSorted t ts ↔ u = t ∨ u ∈ ts := by
  induction ts with
  | nil => exact List.mem_singleton.trans (or_iff_left List.not_mem_nil).symm
  | cons x xs ih =>
    unfold insertSorted
    split_ifs with heq hlt
    · rw [heq, List.mem_cons, or_self_left]
    · rw [List.mem_cons]
    · rw [List.mem_cons, ih, List.mem_cons, or_left_comm]

theorem pairwise_insertSorted {t : Text} {ts : List Text} (h : ts.Pairwise (· < ·)) :
    (insertSorted t ts).Pairwise (· < ·) := by
  induction ts with
  | nil => exact List.pairwise_singleton _ _
  | cons x xs ih =>
    obtain ⟨hx, hxs⟩ := List.pairwise_cons.mp h
    unfold insertSorted
    split_ifs with heq hlt
    · exact h
    · refine List.pairwise_cons.mpr ⟨fun u hu => ?_, h⟩
      rcases List.mem_cons.mp hu with rfl | hu
      · exact hlt
      · exact lt_trans hlt (hx u hu)
    · refine List.pairwise_cons.mpr ⟨fun u hu => ?_, ih hxs⟩
      rcases mem_insertSorted.mp hu with rfl | hu
      · exact lt_of_le_of_ne (not_lt.mp hlt) (Ne.symm heq)
      · exact hx u hu

theorem sortedSet_append_singleton (ts : List Text) (t : Text) :
    sortedSet (ts ++ [t]) = insertSorted t (sortedSet ts) := by
  unfold sortedSet
  rw [List.foldl_append]
  rfl

@[simp] theorem mem_sortedSet {t : Text} {ts : List Text} : t ∈ sortedSet ts ↔ t ∈ ts := by
  induction ts using List.reverseRecOn with
  | nil => rfl
  | append_singleton ts u ih =>
    rw [sortedSet_append_singleton, mem_insertSorted, ih, List.mem_append, List.mem_singleton,
      or_comm]

theorem pairwise_sortedSet (ts : List Text) : (sortedSet ts).Pairwise (· < ·) := by
  induction ts using List.reverseRecOn with
  | nil => exact .nil
  | append_singleton ts u ih =>
    rw [sortedSet_append_singleton]
    exact pairwise_insertSorted ih

/-- A sorted list without repetitions is told by its members. -/
theorem eq_of_pairwise_lt {ts us : List Text} (hts : ts.Pairwise (· < ·))
    (hus : us.Pairwise (· < ·)) (h : ∀ t, t ∈ ts ↔ t ∈ us) : ts = us :=
  List.Pairwise.eq_of_mem_iff hts hus h

end QueryValidator.Text
