import QueryValidator.Proofs.Module.Header
import QueryValidator.Proofs.Module.ImportList
import QueryValidator.Proofs.Text.Join

/-!
# Histories of an import list

An import list is made by calls that offer it imports, one alone or several at a time. Whatever the
calls are, the list has of all imports offered the first of each identifier, in the order of the
offers (`FirstOfEach`), so that only the sequence of the offers matters and not how the calls cut
it.
-/

namespace QueryValidator

/-! ### Calls -/

inductive ImportCall where
  | insert (i : Import)
  | extend (is : List Import)
deriving DecidableEq, Repr

/-- The imports that a call offers. -/
def ImportCall.imports : ImportCall → List Import
  | .insert i => [i]
  | .extend is => is

/-- All imports that some calls offer. -/
def offeredBy (calls : List ImportCall) : List Import :=
  calls.flatMap ImportCall.imports

namespace ImportList

def perform (l : ImportList) : ImportCall → ImportList
  | .insert i => (l.offer i).2
  | .extend is => l.insertAll is

/-- The list after some calls on an empty one. -/
def ofCalls (calls : List ImportCall) : ImportList :=
  calls.foldl perform empty

theorem perform_eq (l : ImportList) (c : ImportCall) : l.perform c = l.insertAll c.imports := by
  cases c <;> rfl

theorem foldl_perform (l : ImportList) (calls : List ImportCall) :
    calls.foldl perform l = l.insertAll (offeredBy calls) := by
  induction calls generalizing l with
  | nil => rfl
  | cons c calls ih =>
    rw [List.foldl_cons, ih, perform_eq, ← insertAll_append]
    rfl

theorem ofCalls_eq (calls : List ImportCall) : ofCalls calls = empty.insertAll (offeredBy calls) :=
  foldl_perform empty calls

theorem ofCalls_append (calls later : List ImportCall) :
    ofCalls (calls ++ later) = (ofCalls calls).insertAll (offeredBy later) := by
  unfold ofCalls
  rw [List.foldl_append, foldl_perform]

theorem contains_ofCalls {calls : List ImportCall} {ident : Text} :
    (ofCalls calls).contains ident = true ↔ ∃ i ∈ offeredBy calls, i.ident = ident := by
  rw [ofCalls_eq]
  exact contains_insertAll_empty

theorem offer_new_iff {l : ImportList} {i : Import} :
    (l.offer i).1 = true ↔ ¬ l.contains i.ident = true := by
  rw [offer_fst, Bool.not_eq_true', Bool.not_eq_true]

/-- Imports whose identifiers are there already change nothing. -/
theorem insertAll_of_contains {l : ImportList} {is : List Import}
    (h : ∀ i ∈ is, l.contains i.ident = true) : l.insertAll is = l := by
  induction is with
  | nil => rfl
  | cons i is ih =>
    obtain ⟨hi, his⟩ := List.forall_mem_cons.mp h
    rw [insertAll_cons, insert_of_contains hi, ih his]

end ImportList

/-! ### First offers -/

/-- `i` is offered in `s`, and no import before that offer has its identifier. -/
def IsFirstOffer (s : List Import) (i : Import) : Prop :=
  ∃ before after, s = before ++ i :: after ∧ ∀ j ∈ before, j.ident ≠ i.ident

/-- `l` keeps of `s` the first import of each identifier, in the order of `s`. -/
structure FirstOfEach (s l : List Import) : Prop where
  ordered : l.Sublist s
  first : ∀ i, i ∈ l ↔ IsFirstOffer s i
  distinct : (l.map Import.ident).Nodup

theorem isFirstOffer_append_singleton {s : List Import} {i j : Import} :
    IsFirstOffer (s ++ [i]) j ↔
      IsFirstOffer s j ∨ j = i ∧ ∀ k ∈ s, k.ident ≠ i.ident := by
  constructor
  · rintro ⟨before, after, heq, hbefore⟩
    cases after using List.reverseRecOn with
    | nil =>
      obtain ⟨rfl, hi⟩ := List.append_inj' heq rfl
      obtain rfl := List.singleton_inj.mp hi
      exact Or.inr ⟨rfl, hbefore⟩
    | append_singleton after k =>
      rw [← List.cons_append, ← List.append_assoc] at heq
      exact Or.inl ⟨before, after, (List.append_inj' heq rfl).1, hbefore⟩
  · rintro (⟨before, after, rfl, hbefore⟩ | ⟨rfl, hs⟩)
    · exact ⟨before, after ++ [i], by simp, hbefore⟩
    · exact ⟨s, [], rfl, hs⟩

namespace ImportList

theorem firstOfEach_insertAll (s : List Import) : FirstOfEach s (empty.insertAll s).entries := by
  induction s using List.reverseRecOn with
  | nil =>
    refine ⟨List.nil_sublist [], fun i => iff_of_false List.not_mem_nil ?_, List.nodup_nil⟩
    rintro ⟨before, after, heq, -⟩
    exact absurd heq (by simp)
  | append_singleton s i ih =>
    have hknown : (empty.insertAll s).contains i.ident = true ↔ ∃ j ∈ s, j.ident = i.ident :=
      contains_insertAll_empty
    refine ⟨?_, fun j => ?_, (empty.insertAll (s ++ [i])).distinct⟩
    · rw [insertAll_append_singleton, entries_insert]
      split
      · exact ih.ordered.trans (List.sublist_append_left s [i])
      · exact ih.ordered.append (List.Sublist.refl [i])
    · rw [isFirstOffer_append_singleton, ← ih.first, insertAll_append_singleton, entries_insert]
      by_cases h : (empty.insertAll s).contains i.ident = true
      · rw [if_pos h, or_iff_left]
        rintro ⟨-, hnew⟩
        obtain ⟨k, hk, hident⟩ := hknown.mp h
        exact hnew k hk hident
      · have hnew : ∀ k ∈ s, k.ident ≠ i.ident :=
          fun k hk hident => h (hknown.mpr ⟨k, hk, hident⟩)
        rw [if_neg h, List.mem_append, List.mem_singleton, and_iff_left hnew]

/-- The statements of a list are its lines, one for each entry. -/
theorem splitAt_text {l : ImportList} {origin : Category}
    (h : ∀ i ∈ l.entries, '\n' ∉ i.line origin) :
    Text.splitAt '\n' (l.text origin) = (l.entries.map fun i => i.line origin) ++ [[]] := by
  have hlines : ∀ line ∈ l.entries.map fun i => i.line origin, '\n' ∉ line :=
    List.forall_mem_map.mpr h
  have htext : l.text origin = (l.entries.map fun i => i.line origin).flatMap (· ++ ['\n']) := by
    rw [List.flatMap_map]
    exact congrArg (l.entries.flatMap ·) (funext fun i => i.statement_eq origin)
  rw [htext, ← List.append_nil ((l.entries.map fun i => i.line origin).flatMap (· ++ ['\n'])),
    Text.splitAt_lines hlines]
  rfl

/-- **An import list is the set of its offers in their order**: after any calls it has, of each
identifier that was offered, the first import. An offer is new exactly if no import before has its
identifier, and one that is not new changes nothing, nor do any calls that offer again what was
offered. The list depends on the sequence of the offers alone, and its text has one statement for
each entry. -/
theorem ofCalls_keeps_first (calls : List ImportCall) :
    FirstOfEach (offeredBy calls) (ofCalls calls).entries ∧
    (∀ i, ofCalls (calls ++ [.insert i]) = ((ofCalls calls).offer i).2 ∧
      (((ofCalls calls).offer i).1 = true ↔ ∀ j ∈ offeredBy calls, j.ident ≠ i.ident) ∧
      (((ofCalls calls).offer i).1 = false → ((ofCalls calls).offer i).2 = ofCalls calls)) ∧
    (∀ ident, (ofCalls calls).contains ident = true ↔ ∃ i ∈ offeredBy calls, i.ident = ident) ∧
    (∀ again, offeredBy again ⊆ offeredBy calls → ofCalls (calls ++ again) = ofCalls calls) ∧
    (∀ others, offeredBy others = offeredBy calls → ofCalls others = ofCalls calls) ∧
    ∀ origin, (ofCalls calls).text origin =
        ((ofCalls calls).entries.map fun i => i.line origin ++ ['\n']).flatten ∧
      ((∀ i ∈ offeredBy calls, '\n' ∉ i.line origin) →
        Text.splitAt '\n' ((ofCalls calls).text origin) =
          ((ofCalls calls).entries.map fun i => i.line origin) ++ [[]]) := by
  have hfirst : FirstOfEach (offeredBy calls) (ofCalls calls).entries := by
    rw [ofCalls_eq]
    exact firstOfEach_insertAll (offeredBy calls)
  refine ⟨hfirst, fun i => ⟨?_, ?_, ?_⟩, fun _ => contains_ofCalls, ?_, ?_, fun origin => ⟨?_, ?_⟩⟩
  · exact ofCalls_append calls [.insert i]
  · rw [offer_new_iff, contains_ofCalls]
    push Not
    rfl
  · intro h
    have hknown : (ofCalls calls).contains i.ident = true := by
      rwa [offer_fst, Bool.not_eq_false'] at h
    exact insert_of_contains hknown
  · intro again hagain
    rw [ofCalls_append]
    exact insertAll_of_contains fun i hi => contains_ofCalls.mpr ⟨i, hagain hi, rfl⟩
  · intro others hothers
    rw [ofCalls_eq, ofCalls_eq, hothers]
  · rw [← List.flatMap_def]
    exact congrArg ((ofCalls calls).entries.flatMap ·) (funext fun i => i.statement_eq origin)
  · intro hlines
    exact splitAt_text fun i hi => hlines i (hfirst.ordered.subset hi)

/-- Imports of three modules, two of which export the same identifier. -/
def postFilter : Import := ⟨"PostSchema", .object, "PostFilter"⟩

def postEnum : Import := ⟨"PostSchema", .enumeration, "Post"⟩

def intFilter : Import := ⟨"IntFilterSchema", .object, "IntFilter"⟩

/-- The second import of an identifier is refused, be it offered alone or among others, and the text
has a line for each of the two that are left. -/
theorem ofCalls_two_kinds :
    (ofCalls [.insert postFilter, .extend [postEnum, intFilter]]).entries =
        [postFilter, intFilter] ∧
      ((ofCalls [.insert postFilter]).offer postEnum).1 = false ∧
      ofCalls [.insert postFilter, .insert postEnum] = ofCalls [.insert postFilter] ∧
      ofCalls [.insert postFilter, .extend [postFilter, postFilter]] =
        ofCalls [.insert postFilter] ∧
      ofCalls [.extend [postFilter, postEnum], .insert intFilter] =
        ofCalls [.insert postFilter, .extend [postEnum, intFilter]] ∧
      Text.splitAt '\n'
          ((ofCalls [.insert postFilter, .extend [postEnum, intFilter]]).text .enumeration) =
        ["import \x7b PostSchema \x7d from '../objects/PostFilter.schema';",
          "import \x7b IntFilterSchema \x7d from '../objects/IntFilter.schema';", ""] := by
  obtain ⟨-, hoffer, -, hagain, -, -⟩ := ofCalls_keeps_first [.insert postFilter]
  obtain ⟨-, -, -, -, hsplit, htext⟩ :=
    ofCalls_keeps_first [.insert postFilter, .extend [postEnum, intFilter]]
  have hrefused : ((ofCalls [.insert postFilter]).offer postEnum).1 = false := by decide
  obtain ⟨hlater, -, hsame⟩ := hoffer postEnum
  refine ⟨by decide, hrefused, hlater.trans (hsame hrefused), ?_, hsplit _ (by decide), ?_⟩
  · exact hagain [.extend [postFilter, postFilter]] (by decide)
  · rw [(htext .enumeration).2 (by decide)]
    decide

end ImportList

end QueryValidator
