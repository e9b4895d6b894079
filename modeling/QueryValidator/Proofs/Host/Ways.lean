import QueryValidator.Proofs.Host.Labels

/-!
# Ways through a file tree

`t.Leads k p parts k' q`: the way along `parts` from the directory `p` goes through directories and
links only and arrives at `q`, with `k'` of `k` links left. `walk` goes these ways, whatever it is
for, and what stands behind them decides where it ends (`walk_append`, `leads_of_walk_append`).
A way depends on the labels that it passes alone, so that it is still there when a tree grows.
-/

namespace QueryValidator

namespace FileTree

variable {t t' : FileTree} {p q a : List Text} {x : Text}

/-! ### Trails -/

namespace Trail

theorem place_enter (d : Trail) (x : Text) : (d.enter x).place = d.place ++ [x] := by
  unfold enter
  split <;> exact List.reverse_cons

theorem above_enter (d : Trail) (x : Text) : (d.enter x).above = d := by
  unfold enter
  split <;> rfl

theorem entries?_enter (d : Trail) (x : Text) : (d.enter x).entries? =
    (d.entries?.bind fun entries => entries.lookup x).bind Node.entries? := by
  unfold enter
  split
  · next entries h =>
    rw [h]
    rfl
  · next hnot =>
    cases h : d.entries?.bind fun entries => entries.lookup x with
    | none => rfl
    | some n =>
      cases n with
      | file content => rfl
      | link target => rfl
      | directory entries => exact absurd h (hnot entries)

end Trail

theorem trail_append (t : FileTree) (p : List Text) (x : Text) :
    t.trail (p ++ [x]) = (t.trail p).enter x := by
  unfold trail
  rw [List.foldl_append]
  rfl

@[simp] theorem place_trail (t : FileTree) (p : List Text) : (t.trail p).place = p := by
  induction p using List.reverseRecOn with
  | nil => rfl
  | append_singleton p x ih => rw [trail_append, Trail.place_enter, ih]

theorem above_trail (t : FileTree) (p : List Text) : (t.trail p).above = t.trail p.dropLast := by
  induction p using List.reverseRecOn with
  | nil => rfl
  | append_singleton p x ih => rw [trail_append, Trail.above_enter, List.dropLast_concat]

theorem entries?_trail (t : FileTree) (p : List Text) :
    (t.trail p).entries? = (t.node? p).bind Node.entries? := by
  induction p using List.reverseRecOn with
  | nil => rfl
  | append_singleton p x ih =>
    rw [trail_append, Trail.entries?_enter, ih, node?_append]
    cases t.node? p with
    | none => rfl
    | some n =>
      cases n with
      | file content => rfl
      | link target => rfl
      | directory es =>
        exact congrArg (Option.bind · Node.entries?) (Option.bind_fun_some (es.lookup x)).symm

theorem entries?_trail_eq_some_iff {es : List (Text × Node)} :
    (t.trail p).entries? = some es ↔ t.node? p = some (.directory es) := by
  rw [entries?_trail, Option.bind_eq_some_iff]
  constructor
  · rintro ⟨n, hn, hes⟩
    cases n with
    | file content => cases hes
    | link target => cases hes
    | directory entries =>
      cases hes
      exact hn
  · intro h
    exact ⟨_, h, rfl⟩

theorem trail_inside {es : List (Text × Node)} (h : t.node? (p ++ [x]) = some (.directory es)) :
    t.trail (p ++ [x]) = .inside x es (t.trail p) := by
  have hp : t.label? p = some .directory := by
    refine label?_of_below (q := [x]) ?_ (List.cons_ne_nil _ _)
    rw [label?_of_node? h]
    rfl
  obtain ⟨above, habove⟩ := label?_eq_directory_iff.mp hp
  rw [node?_of_directory habove] at h
  rw [trail_append, Trail.enter, entries?_trail_eq_some_iff.mpr habove, Option.bind_some, h]

/-! ### Steps -/

/-- A name that leads to an entry of its directory. -/
structure IsStep (x : Text) : Prop where
  ne_here : x ≠ ['.']
  ne_up : x ≠ ['.', '.']
  fits : Text.utf8Size x ≤ maxName

/-- Where the route begins, seen from the directory `here`. -/
def Route.start (r : Route) (here : List Text) : List Text :=
  if r.isAbsolute then [] else here

theorem Route.start_congr {path path' : Text} (h : Path.isAbsolute path = Path.isAbsolute path')
    (here : List Text) : (Route.ofText path).start here = (Route.ofText path').start here := by
  show (if Path.isAbsolute path then [] else here) = if Path.isAbsolute path' then [] else here
  rw [h]

variable {purpose : Purpose} {slash : Bool} {k k' : Nat} {d : Trail} {rest : List Text}
  {r : Target}

theorem walk_nil : t.walk purpose k slash d [] =
    .ok (.node d.place (.directory (d.entries?.getD []))) := rfl

theorem walk_up :
    t.walk purpose k slash d (['.', '.'] :: rest) = t.walk purpose k slash d.above rest := rfl

theorem trail_start (t : FileTree) (r : Route) (p : List Text) :
    (if r.isAbsolute then .root t.entries else t.trail p) = t.trail (r.start p) := by
  unfold Route.start
  split <;> rfl

/-- The walk along a name, by what the name stands for. -/
theorem walk_step {es : List (Text × Node)} (hx : IsStep x) (hp : t.node? p = some (.directory es)) :
    t.walk purpose k slash (t.trail p) (x :: rest) =
      if rest.isEmpty ∧ slash ∧ purpose = .file then .error .isDirectory
      else match es.lookup x with
      | none => if rest.isEmpty then .ok (.vacant (p ++ [x])) else .error .notFound
      | some (.directory inside) =>
        t.walk purpose k slash (.inside x inside (t.trail p)) rest
      | some (.file content) =>
        if rest.isEmpty ∧ (!slash ∨ purpose = .newEntry) then
          .ok (.node (p ++ [x]) (.file content))
        else .error .notDirectory
      | some (.link target) =>
        if rest.isEmpty ∧ !purpose.follows slash then .ok (.node (p ++ [x]) (.link target))
        else
          t.follow purpose k (slash || (rest.isEmpty && (Route.ofText target).wantsDirectory))
            (t.trail ((Route.ofText target).start p)) ((Route.ofText target).parts ++ rest) := by
  rw [walk, walkParts, if_neg hx.ne_here, if_neg hx.ne_up, entries?_trail_eq_some_iff.mpr hp,
    place_trail]
  split
  · rfl
  · simp only [if_neg (Nat.not_lt.mpr hx.fits), trail_start]
    rfl

/-- A walk to a file is refused at once only if its last name has a slash behind it. -/
theorem not_refused (hend : rest ≠ [] ∨ purpose ≠ .file) :
    ¬ (rest.isEmpty ∧ slash ∧ purpose = .file) := by
  rintro ⟨hrest, -, hpurpose⟩
  rcases hend with h | h
  · exact h (List.isEmpty_iff.mp hrest)
  · exact h hpurpose

theorem walk_enter (hx : IsStep x) (hdir : t.label? (p ++ [x]) = some .directory)
    (hend : rest ≠ [] ∨ purpose ≠ .file) :
    t.walk purpose k slash (t.trail p) (x :: rest) =
      t.walk purpose k slash (t.trail (p ++ [x])) rest := by
  have hp : t.label? p = some .directory :=
    label?_of_below (by rw [hdir]; rfl) (List.cons_ne_nil x [])
  obtain ⟨es, hes⟩ := label?_eq_directory_iff.mp hp
  obtain ⟨inside, hinside⟩ := label?_eq_directory_iff.mp hdir
  rw [walk_step hx hes, if_neg (not_refused hend), trail_inside hinside]
  rw [node?_of_directory hes] at hinside
  rw [hinside]

theorem walk_follow {target : Text} (hx : IsStep x)
    (hlink : t.label? (p ++ [x]) = some (.link target)) (hend : rest ≠ [] ∨ purpose = .content) :
    t.walk purpose (k + 1) slash (t.trail p) (x :: rest) =
      t.walk purpose k (slash || (rest.isEmpty && (Route.ofText target).wantsDirectory))
        (t.trail ((Route.ofText target).start p)) ((Route.ofText target).parts ++ rest) := by
  have hp : t.label? p = some .directory :=
    label?_of_below (by rw [hlink]; rfl) (List.cons_ne_nil x [])
  obtain ⟨es, hes⟩ := label?_eq_directory_iff.mp hp
  have hlookup : es.lookup x = some (.link target) := by
    rw [← node?_of_directory hes]
    rw [label?, Option.map_eq_some_iff] at hlink
    obtain ⟨n, hn, hl⟩ := hlink
    cases n with
    | file content => cases hl
    | directory es => cases hl
    | link target' =>
      cases hl
      exact hn
  have hother : rest ≠ [] ∨ purpose ≠ .file := hend.imp_right fun h => by rw [h]; decide
  have hgo : ¬ (rest.isEmpty ∧ !purpose.follows slash) := by
    rintro ⟨hrest, hfollows⟩
    rcases hend with h | rfl
    · exact h (List.isEmpty_iff.mp hrest)
    · cases hfollows
  rw [walk_step hx hes, if_neg (not_refused hother), hlookup]
  exact if_neg hgo

/-- What the first name of a walk that arrives can be. -/
inductive FirstStep (t : FileTree) (purpose : Purpose) (slash : Bool) (p : List Text) (r : Target) :
    (links : Nat) → (x : Text) → (rest : List Text) → Prop
  | here {k : Nat} {rest : List Text} : t.walk purpose k slash (t.trail p) rest = .ok r →
      FirstStep t purpose slash p r k ['.'] rest
  | up {k : Nat} {rest : List Text} : t.walk purpose k slash (t.trail p.dropLast) rest = .ok r →
      FirstStep t purpose slash p r k ['.', '.'] rest
  | enter {k : Nat} {x : Text} {rest : List Text} : IsStep x → t.label? (p ++ [x]) = some .directory →
      t.walk purpose k slash (t.trail (p ++ [x])) rest = .ok r →
      FirstStep t purpose slash p r k x rest
  | follow {k : Nat} {x : Text} {rest : List Text} {target : Text} : IsStep x →
      t.label? (p ++ [x]) = some (.link target) →
      (rest = [] → purpose.follows slash = true) →
      t.walk purpose k (slash || (rest.isEmpty && (Route.ofText target).wantsDirectory))
        (t.trail ((Route.ofText target).start p)) ((Route.ofText target).parts ++ rest) = .ok r →
      FirstStep t purpose slash p r (k + 1) x rest
  | vacant {k : Nat} {x : Text} : IsStep x → t.label? p = some .directory → t.label? (p ++ [x]) = none →
      r = .vacant (p ++ [x]) → FirstStep t purpose slash p r k x []
  | leaf {k : Nat} {x : Text} {n : Node} : IsStep x → t.node? (p ++ [x]) = some n → n.label ≠ .directory →
      r = .node (p ++ [x]) n → FirstStep t purpose slash p r k x []

/-- A name that is walked along is looked up in a directory, and is not too long. -/
theorem looked_of_walk (hhere : x ≠ ['.']) (hup : x ≠ ['.', '.'])
    (h : t.walk purpose k slash (t.trail p) (x :: rest) = .ok r) :
    IsStep x ∧ ∃ es, t.node? p = some (.directory es) := by
  rw [walk, walkParts, if_neg hhere, if_neg hup] at h
  cases hes : (t.trail p).entries? with
  | none =>
    rw [hes] at h
    split at h <;> cases h
  | some es =>
    refine ⟨⟨hhere, hup, ?_⟩, es, entries?_trail_eq_some_iff.mp hes⟩
    by_contra hlong
    rw [hes] at h
    simp only [if_pos (Nat.lt_of_not_le hlong)] at h
    split at h <;> cases h

theorem firstStep_of_walk (h : t.walk purpose k slash (t.trail p) (x :: rest) = .ok r) :
    FirstStep t purpose slash p r k x rest := by
  by_cases hhere : x = ['.']
  · subst hhere
    exact .here h
  by_cases hup : x = ['.', '.']
  · subst hup
    rw [walk_up, above_trail] at h
    exact .up h
  obtain ⟨hx, es, hp⟩ := looked_of_walk hhere hup h
  have hat := node?_of_directory hp x
  rw [walk_step hx hp] at h
  split at h
  · cases h
  · cases hlookup : es.lookup x with
    | none =>
      rw [hlookup] at h hat
      by_cases hrest : rest = []
      · subst hrest
        cases h
        exact .vacant hx (label?_of_node? hp) (by rw [label?, hat]; rfl) rfl
      · have hno : ¬ (rest.isEmpty = true) := fun he => hrest (List.isEmpty_iff.mp he)
        simp only [if_neg hno] at h
        cases h
    | some n =>
      rw [hlookup] at h hat
      cases n with
      | directory inside =>
        refine .enter hx (label?_of_node? hat) ?_
        rw [trail_inside hat]
        exact h
      | file content =>
        by_cases hend : rest.isEmpty ∧ (!slash ∨ purpose = .newEntry)
        · obtain rfl := List.isEmpty_iff.mp hend.1
          simp only [if_pos hend] at h
          cases h
          exact .leaf hx hat (by simp [Node.label]) rfl
        · simp only [if_neg hend] at h
          cases h
      | link target =>
        by_cases hend : rest.isEmpty ∧ !purpose.follows slash
        · obtain rfl := List.isEmpty_iff.mp hend.1
          simp only [if_pos hend] at h
          cases h
          exact .leaf hx hat (by simp [Node.label]) rfl
        · simp only [if_neg hend] at h
          cases k with
          | zero => cases h
          | succ k =>
            refine .follow hx (label?_of_node? hat) (fun hrest => ?_) h
            by_contra hfollows
            exact hend ⟨by rw [hrest]; rfl, by simpa using hfollows⟩

/-! ### Ways -/

/-- The way along `parts` from `p` goes through directories and links and arrives at `q`. -/
inductive Leads (t : FileTree) :
    (links : Nat) → (p parts : List Text) → (left : Nat) → (q : List Text) → Prop
  | nil {k : Nat} {p : List Text} : Leads t k p [] k p
  | here {k k' : Nat} {p rest q : List Text} : Leads t k p rest k' q →
      Leads t k p (['.'] :: rest) k' q
  | up {k k' : Nat} {p rest q : List Text} : Leads t k p.dropLast rest k' q →
      Leads t k p (['.', '.'] :: rest) k' q
  | enter {k k' : Nat} {p rest q : List Text} {x : Text} : IsStep x →
      t.label? (p ++ [x]) = some .directory → Leads t k (p ++ [x]) rest k' q →
      Leads t k p (x :: rest) k' q
  | follow {k k' : Nat} {p rest q : List Text} {x target : Text} : IsStep x →
      t.label? (p ++ [x]) = some (.link target) →
      Leads t k ((Route.ofText target).start p) ((Route.ofText target).parts ++ rest) k' q →
      Leads t (k + 1) p (x :: rest) k' q

namespace Leads

variable {parts front back : List Text}

theorem append {k₁ k₂ : Nat} {m : List Text} (h : t.Leads k p front k₁ m)
    (h' : t.Leads k₁ m back k₂ q) : t.Leads k p (front ++ back) k₂ q := by
  induction h with
  | nil => exact h'
  | here _ ih => exact .here (ih h')
  | up _ ih => exact .up (ih h')
  | enter hx hdir _ ih => exact .enter hx hdir (ih h')
  | follow hx hlink _ ih =>
    have hway := ih h'
    rw [List.append_assoc] at hway
    exact .follow hx hlink hway

/-- A walk goes along a way, if it does not end there. -/
theorem walk_append (h : t.Leads k p parts k' q) (hback : back ≠ []) :
    t.walk purpose k slash (t.trail p) (parts ++ back) =
      t.walk purpose k' slash (t.trail q) back := by
  have hne : ∀ front : List Text, front ++ back ≠ [] := by
    intro front
    exact List.append_ne_nil_of_right_ne_nil front hback
  induction h with
  | nil => rfl
  | here _ ih => exact ih
  | up _ ih =>
    rw [List.cons_append, walk_up, above_trail]
    exact ih
  | enter hx hdir _ ih =>
    rw [List.cons_append, walk_enter hx hdir (Or.inl (hne _))]
    exact ih
  | @follow k p x rest k' q target hx hlink _ ih =>
    have hempty : (rest ++ back).isEmpty = false := List.isEmpty_eq_false_iff.mpr (hne rest)
    rw [List.cons_append, walk_follow hx hlink (Or.inl (hne _)), hempty, Bool.false_and,
      Bool.or_false, ← List.append_assoc]
    exact ih

/-- A walk along the whole way arrives at its end. -/
theorem walk_content (h : t.Leads k p parts k' q) (slash : Bool) :
    t.walk .content k slash (t.trail p) parts =
      .ok (.node q (.directory ((t.trail q).entries?.getD []))) := by
  induction h generalizing slash with
  | nil => rw [walk_nil, place_trail]
  | here _ ih => exact ih slash
  | up _ ih =>
    rw [walk_up, above_trail]
    exact ih slash
  | enter hx hdir _ ih =>
    rw [walk_enter hx hdir (Or.inr (by decide))]
    exact ih slash
  | follow hx hlink _ ih =>
    rw [walk_follow hx hlink (Or.inr rfl)]
    exact ih _

theorem functional {k₁ k₂ : Nat} {q₁ q₂ : List Text} (h₁ : t.Leads k p parts k₁ q₁)
    (h₂ : t.Leads k p parts k₂ q₂) : q₁ = q₂ := by
  have hwalk := (h₁.walk_content false).symm.trans (h₂.walk_content false)
  exact (Target.node.inj (Except.ok.inj hwalk)).1

/-- Nothing new can be made where a way leads. -/
theorem walk_newEntry_ne_vacant (h : t.Leads k p parts k' q) :
    t.walk .newEntry k slash (t.trail p) parts ≠ .ok (.vacant a) := by
  intro hwalk
  induction h generalizing slash with
  | nil => cases hwalk
  | here _ ih => exact ih hwalk
  | up _ ih =>
    rw [walk_up, above_trail] at hwalk
    exact ih hwalk
  | enter hx hdir _ ih =>
    rw [walk_enter hx hdir (Or.inr (by decide))] at hwalk
    exact ih hwalk
  | @follow k p x rest k' q target hx hlink _ ih =>
    cases firstStep_of_walk hwalk with
    | here => exact hx.ne_here rfl
    | up => exact hx.ne_up rfl
    | enter _ hdir _ =>
      rw [hlink] at hdir
      cases hdir
    | follow _ hlink' _ hwalk' =>
      rw [hlink] at hlink'
      cases hlink'
      exact ih hwalk'
    | vacant _ _ hnone _ =>
      rw [hlink] at hnone
      cases hnone
    | leaf _ _ _ hr => cases hr

end Leads

/-- A walk that arrives has gone a way before its last parts. -/
theorem leads_of_walk_append {front back : List Text} (hback : back ≠ [])
    (h : t.walk purpose k slash (t.trail p) (front ++ back) = .ok r) :
    ∃ k' q, t.Leads k p front k' q ∧ t.walk purpose k' slash (t.trail q) back = .ok r := by
  induction k using Nat.strongRecOn generalizing p front with
  | _ k ihk =>
    induction front generalizing p with
    | nil => exact ⟨k, p, .nil, h⟩
    | cons x front ih =>
      have hne : front ++ back ≠ [] := List.append_ne_nil_of_right_ne_nil front hback
      generalize hrest : front ++ back = rest at hne
      rw [List.cons_append, hrest] at h
      cases firstStep_of_walk h with
      | here hwalk =>
        obtain ⟨k', q, hleads, hend⟩ := ih (hrest ▸ hwalk)
        exact ⟨k', q, .here hleads, hend⟩
      | up hwalk =>
        obtain ⟨k', q, hleads, hend⟩ := ih (hrest ▸ hwalk)
        exact ⟨k', q, .up hleads, hend⟩
      | enter hx hdir hwalk =>
        obtain ⟨k', q, hleads, hend⟩ := ih (hrest ▸ hwalk)
        exact ⟨k', q, .enter hx hdir hleads, hend⟩
      | follow hx hlink _ hwalk =>
        have hempty : rest.isEmpty = false := List.isEmpty_eq_false_iff.mpr hne
        rw [hempty, Bool.false_and, Bool.or_false, ← hrest, ← List.append_assoc] at hwalk
        obtain ⟨k', q, hleads, hend⟩ := ihk _ (Nat.lt_succ_self _) hwalk
        exact ⟨k', q, .follow hx hlink hleads, hend⟩
      | vacant => exact absurd rfl hne
      | leaf => exact absurd rfl hne

/-- A path to a directory is a way. -/
theorem leads_of_walk {parts : List Text} {es : List (Text × Node)}
    (h : t.walk .content k slash (t.trail p) parts = .ok (.node q (.directory es))) :
    ∃ k', t.Leads k p parts k' q := by
  induction k using Nat.strongRecOn generalizing p parts slash with
  | _ k ihk =>
    induction parts generalizing p slash with
    | nil =>
      rw [walk_nil, place_trail] at h
      obtain ⟨rfl, -⟩ := Target.node.inj (Except.ok.inj h)
      exact ⟨k, .nil⟩
    | cons x rest ih =>
      cases firstStep_of_walk h with
      | here hwalk =>
        obtain ⟨k', hleads⟩ := ih hwalk
        exact ⟨k', .here hleads⟩
      | up hwalk =>
        obtain ⟨k', hleads⟩ := ih hwalk
        exact ⟨k', .up hleads⟩
      | enter hx hdir hwalk =>
        obtain ⟨k', hleads⟩ := ih hwalk
        exact ⟨k', .enter hx hdir hleads⟩
      | follow hx hlink _ hwalk =>
        obtain ⟨k', hleads⟩ := ihk _ (Nat.lt_succ_self _) hwalk
        exact ⟨k', .follow hx hlink hleads⟩
      | vacant _ _ _ hr => cases hr
      | leaf _ _ hlabel hr =>
        cases hr
        exact absurd rfl hlabel

/-- The beginning of a way is a way. -/
theorem Leads.front {front back : List Text} (h : t.Leads k p (front ++ back) k' q) :
    ∃ k₁ m, t.Leads k p front k₁ m := by
  by_cases hback : back = []
  · rw [hback, List.append_nil] at h
    exact ⟨k', q, h⟩
  · obtain ⟨k₁, m, hfront, -⟩ := leads_of_walk_append hback (h.walk_content false)
    exact ⟨k₁, m, hfront⟩

/-- Where a new entry can be made: a way leads to its directory. -/
theorem leads_of_walk_vacant {parts : List Text}
    (h : t.walk .newEntry k slash (t.trail p) parts = .ok (.vacant a)) :
    ∃ front x k' q, parts = front ++ [x] ∧ t.Leads k p front k' q ∧ IsStep x ∧ a = q ++ [x] ∧
      t.label? q = some .directory ∧ t.label? a = none := by
  rcases List.eq_nil_or_concat parts with rfl | ⟨front, x, rfl⟩
  · cases h
  · rw [List.concat_eq_append] at h ⊢
    obtain ⟨k', q, hleads, hend⟩ := leads_of_walk_append (List.cons_ne_nil x []) h
    refine ⟨front, x, k', q, rfl, hleads, ?_⟩
    cases firstStep_of_walk hend with
    | here hwalk => cases hwalk
    | up hwalk => cases hwalk
    | enter _ _ hwalk => cases hwalk
    | follow _ _ hfollows _ => cases hfollows rfl
    | vacant hx hq hnone hr =>
      cases hr
      exact ⟨hx, rfl, hq, hnone⟩
    | leaf _ _ _ hr => cases hr

/-- Names of directories below one another are a way. -/
theorem leads_of_names {names : List Text} (hsteps : ∀ x ∈ names, IsStep x)
    (hdirs : ∀ front, front <+: names → t.label? (p ++ front) = some .directory) :
    t.Leads k p names k (p ++ names) := by
  induction names generalizing p with
  | nil =>
    rw [List.append_nil]
    exact .nil
  | cons x names ih =>
    obtain ⟨hx, hsteps⟩ := List.forall_mem_cons.mp hsteps
    have hnext := ih (p := p ++ [x]) hsteps fun front hfront => by
      rw [List.append_assoc]
      exact hdirs (x :: front) (List.cons_prefix_cons.mpr ⟨rfl, hfront⟩)
    rw [List.append_assoc] at hnext
    exact .enter hx (hdirs [x] (List.cons_prefix_cons.mpr ⟨rfl, List.nil_prefix⟩)) hnext

/-! ### Growing trees -/

/-- Everything in `t` is in `t'` as well. -/
def Within (t t' : FileTree) : Prop :=
  ∀ a l, t.label? a = some l → t'.label? a = some l

theorem Within.refl (t : FileTree) : t.Within t := fun _ _ h => h

theorem Within.trans {t'' : FileTree} (h : t.Within t') (h' : t'.Within t'') : t.Within t'' :=
  fun a l hl => h' a l (h a l hl)

theorem Leads.mono {parts : List Text} (ht : t.Within t') (h : t.Leads k p parts k' q) :
    t'.Leads k p parts k' q := by
  induction h with
  | nil => exact .nil
  | here _ ih => exact .here ih
  | up _ ih => exact .up ih
  | enter hx hdir _ ih => exact .enter hx (ht _ _ hdir) ih
  | follow hx hlink _ ih => exact .follow hx (ht _ _ hlink) ih

/-- The place `q` is `p` as far as there are directories on the way to `p`; below them, where no way
leads but the one up, only the depth is the same. -/
structure Tracks (t : FileTree) (p q : List Text) : Prop where
  length_eq : p.length = q.length
  standing : ∀ a, a <+: p → t.label? a = some .directory → a <+: q

namespace Tracks

theorem refl (t : FileTree) (p : List Text) : t.Tracks p p := ⟨rfl, fun _ h _ => h⟩

theorem trans {q' : List Text} (h : t.Tracks p q) (h' : t.Tracks q q') : t.Tracks p q' :=
  ⟨h.length_eq.trans h'.length_eq, fun a ha hdir => h'.standing a (h.standing a ha hdir) hdir⟩

theorem anti (ht : t.Within t') (h : t'.Tracks p q) : t.Tracks p q :=
  ⟨h.length_eq, fun a ha hdir => h.standing a ha (ht _ _ hdir)⟩

theorem eq (h : t.Tracks p q) (hp : t.label? p = some .directory) : q = p :=
  ((h.standing p (List.prefix_refl p) hp).eq_of_length h.length_eq).symm

theorem dropLast (h : t.Tracks p q) : t.Tracks p.dropLast q.dropLast where
  length_eq := by rw [List.length_dropLast, List.length_dropLast, h.length_eq]
  standing a ha hdir := by
    have hq := h.standing a (ha.trans (List.dropLast_prefix p)) hdir
    refine List.prefix_of_prefix_length_le hq (List.dropLast_prefix q) ?_
    rw [List.length_dropLast, ← h.length_eq, ← List.length_dropLast]
    exact ha.length_le

theorem start (h : t.Tracks p q) (r : Route) : t.Tracks (r.start p) (r.start q) := by
  unfold Route.start
  split
  · exact .refl t []
  · exact h

end Tracks

/-- A way to a directory is there from every place that tracks its beginning. -/
theorem Leads.tracks {parts : List Text} {p' : List Text} (h : t.Leads k p parts k' q)
    (hq : t.label? q = some .directory) (hp : t.Tracks p p') : t.Leads k p' parts k' q := by
  have hbegin : ∀ {p p' : List Text} {x : Text} {l : Label}, t.Tracks p p' →
      t.label? (p ++ [x]) = some l → p' = p := by
    intro p p' x l htracks hl
    exact htracks.eq (label?_of_below (by rw [hl]; rfl) (List.cons_ne_nil x []))
  induction h generalizing p' with
  | nil =>
    rw [hp.eq hq]
    exact .nil
  | here _ ih => exact .here (ih hq hp)
  | up _ ih => exact .up (ih hq hp.dropLast)
  | enter hx hdir hleads _ =>
    rw [hbegin hp hdir]
    exact .enter hx hdir hleads
  | follow hx hlink hleads _ =>
    rw [hbegin hp hlink]
    exact .follow hx hlink hleads

theorem length_standing (t : FileTree) (above place : List Text) :
    (Machine.standing t above place).length = above.length + place.length := by
  induction place generalizing above with
  | nil => rfl
  | cons x place ih =>
    rw [Machine.standing]
    split
    · rw [ih, List.length_append, List.length_singleton, List.length_cons]
      omega
    · rw [List.length_append, List.length_map]

/-- Where a current directory was, what is still there begins what is left of it. -/
theorem standing_of_begins {above place a : List Text} (ha : a <+: above ++ place)
    (hsome : (t.label? a).isSome) : a <+: Machine.standing t above place := by
  induction place generalizing above with
  | nil =>
    rw [List.append_nil] at ha
    exact ha
  | cons x place ih =>
    have hassoc : above ++ x :: place = (above ++ [x]) ++ place := List.append_cons above x place
    rw [Machine.standing]
    split
    · exact ih (hassoc ▸ ha)
    · next hgone =>
      -- nothing is at the next name, so that `a` does not go on with it
      have hnot : ¬ above ++ [x] <+: a := by
        intro hx
        have hthere := isSome_label?_of_begins hx hsome
        rw [label?, Option.isSome_map] at hthere
        exact hgone hthere
      have hnext : above ++ [x] <+: above ++ x :: place := hassoc ▸ List.prefix_append _ place
      have hshort : a.length ≤ above.length := by
        by_contra hlong
        refine hnot (List.prefix_of_prefix_length_le hnext ha ?_)
        rw [List.length_append, List.length_singleton]
        omega
      have habove : a <+: above :=
        List.prefix_of_prefix_length_le ha (List.prefix_append above _) hshort
      exact habove.trans (List.prefix_append above _)

/-- What is left of a current directory tracks it. -/
theorem tracks_standing (t : FileTree) (p : List Text) : t.Tracks p (Machine.standing t [] p) := by
  refine ⟨?_, fun a ha hdir => standing_of_begins ha (Option.isSome_of_mem hdir)⟩
  rw [length_standing, List.length_nil, Nat.zero_add]

end FileTree

end QueryValidator
