import QueryValidator.Host.FileTree
import QueryValidator.Proofs.Text.Table

/-!
# Places of a file tree

A tree is what it has at each place: a file with its content, a link with its target, a directory or
nothing. `label?` tells which, and an operation on a tree is known by what it does to the labels. To
change what is at a place touches no label outside of it (`label?_alter_outside`).
-/

namespace QueryValidator

/-- What is at a place, without the entries of a directory. -/
inductive Label where
  | file (content : List UInt8)
  | link (target : Text)
  | directory
deriving DecidableEq, Repr

namespace Node

def label : Node → Label
  | .file content => .file content
  | .link target => .link target
  | .directory _ => .directory

/-- The entries of a directory. -/
def entries? : Node → Option (List (Text × Node))
  | .directory entries => some entries
  | _ => none

/-- Nothing is below the node. -/
def IsBare (n : Node) : Prop :=
  ∀ name place, n.at? (name :: place) = none

theorem isBare_file (content : List UInt8) : (Node.file content).IsBare := fun _ _ => rfl

theorem isBare_emptied : (Node.directory []).IsBare := fun _ _ => rfl

theorem label_eq_directory_iff {n : Node} : n.label = .directory ↔ ∃ es, n = .directory es := by
  cases n <;> simp [label]

theorem at?_append (place below : List Text) (n : Node) :
    n.at? (place ++ below) = (n.at? place).bind (at? below) := by
  induction place generalizing n with
  | nil => rfl
  | cons name place ih =>
    cases n with
    | directory entries =>
      show (entries.lookup name).bind (at? (place ++ below)) =
        ((entries.lookup name).bind (at? place)).bind (at? below)
      rw [Option.bind_assoc]
      exact congrArg _ (funext ih)
    | file content => rfl
    | link target => rfl

/-! ### Changed entries -/

variable {name other : Text} {change : Option Node → Option Node} {entries : List (Text × Node)}

theorem lookup_alterEntry_of_ne (h : other ≠ name) :
    (alterEntry name change entries).lookup other = entries.lookup other := by
  have hnew : ∀ (o : Option Node) (es : List (Text × Node)),
      (o.toList.map (name, ·) ++ es).lookup other = es.lookup other := by
    intro o es
    cases o with
    | none => rfl
    | some n => exact (Text.lookup_cons_ite _ _ _ _).trans (if_neg h)
  induction entries with
  | nil => simpa [alterEntry] using hnew (change none) []
  | cons e entries ih =>
    obtain ⟨key, node⟩ := e
    rw [alterEntry]
    split
    · next hkey => rw [hnew, Text.lookup_cons_ite, hkey, if_neg h]
    · rw [Text.lookup_cons_ite, Text.lookup_cons_ite, ih]

theorem lookup_alterEntry_self (h : ∀ n, (change (some n)).isSome) :
    (alterEntry name change entries).lookup name = change (entries.lookup name) := by
  have hnew : ∀ (n : Node) (es : List (Text × Node)),
      ((some n).toList.map (name, ·) ++ es).lookup name = some n := by
    intro n es
    simp
  induction entries with
  | nil =>
    rw [alterEntry, List.lookup_nil]
    cases change none <;> simp
  | cons e entries ih =>
    obtain ⟨key, node⟩ := e
    rw [alterEntry]
    split
    · next hkey =>
      obtain ⟨m, hm⟩ := Option.isSome_iff_exists.mp (h node)
      rw [hm, hnew, Text.lookup_cons_ite, if_pos hkey.symm, hm]
    · next hkey =>
      rw [Text.lookup_cons_ite, Text.lookup_cons_ite, if_neg (Ne.symm hkey), if_neg (Ne.symm hkey), ih]

theorem isSome_alter_cons (place : List Text) (n : Node) :
    (alter change (name :: place) (some n)).isSome := by
  cases n <;> rfl

/-- A change at a place keeps the label of every place that is not below. -/
theorem label_alter_outside {place a : List Text} (h : ¬ place <+: a) (o : Option Node) :
    ((alter change place o).bind (at? a)).map label = (o.bind (at? a)).map label := by
  induction place generalizing a o with
  | nil => exact absurd (List.nil_prefix) h
  | cons name place ih =>
    cases o with
    | none => rfl
    | some n =>
      cases n with
      | file content => rfl
      | link target => rfl
      | directory entries =>
        cases a with
        | nil => rfl
        | cons other a =>
          show (((alterEntry name (alter change place) entries).lookup other).bind (at? a)).map label =
            ((entries.lookup other).bind (at? a)).map label
          by_cases hother : other = name
          · subst hother
            have hplace : ¬ place <+: a := fun hp => h (List.cons_prefix_cons.mpr ⟨rfl, hp⟩)
            cases place with
            | nil => exact absurd List.nil_prefix hplace
            | cons next place => rw [lookup_alterEntry_self (isSome_alter_cons place), ih hplace]
          · rw [lookup_alterEntry_of_ne hother]

/-- What a change at or below a place does there. -/
theorem at?_alter {place below : List Text} {n m : Node} (h : n.at? place = some m)
    (hchange : below ≠ [] ∨ ∀ x, (change (some x)).isSome) :
    (alter change (place ++ below) (some n)).bind (at? place) = alter change below (some m) := by
  have hsome : ∀ (place : List Text) (x : Node),
      (alter change (place ++ below) (some x)).isSome := by
    intro place x
    cases hplace : place ++ below with
    | nil =>
      obtain ⟨-, hbelow⟩ := List.append_eq_nil_iff.mp hplace
      exact hchange.resolve_left (fun hne => hne hbelow) x
    | cons name rest => exact isSome_alter_cons rest x
  induction place generalizing n with
  | nil =>
    cases h
    exact Option.bind_fun_some _
  | cons next place ih =>
    cases n with
    | file content => cases h
    | link target => cases h
    | directory es =>
      obtain ⟨x, hx, hplace⟩ := Option.bind_eq_some_iff.mp h
      show ((alterEntry next (alter change (place ++ below)) es).lookup next).bind (at? place) = _
      rw [lookup_alterEntry_self (hsome place), hx]
      exact ih hplace

end Node

namespace FileTree

variable {t : FileTree} {place p a : List Text} {x : Text} {l : Label}
  {change : Option Node → Option Node}

def label? (t : FileTree) (place : List Text) : Option Label :=
  (t.node? place).map Node.label

theorem node?_append (t : FileTree) (p q : List Text) :
    t.node? (p ++ q) = (t.node? p).bind (Node.at? q) :=
  Node.at?_append p q _

theorem label?_eq_directory_iff :
    t.label? p = some .directory ↔ ∃ es, t.node? p = some (.directory es) := by
  rw [label?, Option.map_eq_some_iff]
  constructor
  · rintro ⟨n, hn, hl⟩
    obtain ⟨es, rfl⟩ := Node.label_eq_directory_iff.mp hl
    exact ⟨es, hn⟩
  · rintro ⟨es, hes⟩
    exact ⟨_, hes, rfl⟩

theorem label?_of_node? {n : Node} (h : t.node? p = some n) : t.label? p = some n.label :=
  congrArg (Option.map Node.label) h

theorem node?_of_directory {es : List (Text × Node)} (h : t.node? p = some (.directory es))
    (x : Text) : t.node? (p ++ [x]) = es.lookup x := by
  rw [node?_append, h]
  show (es.lookup x).bind (Node.at? []) = es.lookup x
  exact Option.bind_fun_some _

/-- What has something below it is a directory. -/
theorem label?_of_below {q : List Text} (h : (t.label? (p ++ q)).isSome) (hq : q ≠ []) :
    t.label? p = some .directory := by
  rw [label?, Option.isSome_map, node?_append] at h
  obtain ⟨m, hm⟩ := Option.isSome_iff_exists.mp h
  obtain ⟨n, hn, hbelow⟩ := Option.bind_eq_some_iff.mp hm
  rw [label?_of_node? hn]
  cases q with
  | nil => exact absurd rfl hq
  | cons name q =>
    cases n with
    | directory es => rfl
    | file content => cases hbelow
    | link target => cases hbelow

theorem isSome_label?_of_begins (h : p <+: a) (ha : (t.label? a).isSome) :
    (t.label? p).isSome := by
  obtain ⟨q, rfl⟩ := h
  by_cases hq : q = []
  · rwa [hq, List.append_nil] at ha
  · rw [label?_of_below ha hq]
    rfl

/-! ### Changed trees -/

theorem node?_alter_cons (t : FileTree) (x : Text) (p a : List Text) :
    (t.alter (x :: p) change).node? a =
      (Node.alter change (x :: p) (some (.directory t.entries))).bind (Node.at? a) := rfl

/-- A change at a place keeps the label of every place that is not below. -/
theorem label?_alter_outside (h : ¬ place <+: a) :
    (t.alter place change).label? a = t.label? a := by
  cases place with
  | nil => exact absurd List.nil_prefix h
  | cons x p =>
    rw [label?, node?_alter_cons]
    exact Node.label_alter_outside h _

theorem node?_alter_below {es : List (Text × Node)} (h : t.node? p = some (.directory es)) :
    (t.alter (p ++ [x]) change).node? p = some (.directory (Node.alterEntry x change es)) := by
  cases p with
  | nil =>
    cases h
    rfl
  | cons y p =>
    rw [List.cons_append, node?_alter_cons]
    exact Node.at?_alter h (Or.inl (List.cons_ne_nil x []))

theorem node?_clear (h : t.label? p = some .directory) :
    (t.clear p).node? p = some (.directory []) := by
  obtain ⟨es, hes⟩ := label?_eq_directory_iff.mp h
  cases p with
  | nil => rfl
  | cons y p =>
    have hat : (Node.alter (fun node => node.map fun _ => .directory []) (y :: p ++ [])
        (some (.directory t.entries))).bind (Node.at? (y :: p)) = some (.directory []) :=
      Node.at?_alter hes (Or.inr fun _ => rfl)
    rwa [List.append_nil] at hat

theorem label?_clear_outside (h : ¬ place <+: a) : (t.clear place).label? a = t.label? a :=
  label?_alter_outside h

/-- A bare node, put into a directory, changes one label. -/
theorem label?_put {n : Node} (hp : t.label? p = some .directory)
    (hold : ∀ m, t.node? (p ++ [x]) = some m → m.IsBare) (hnew : n.IsBare) :
    (t.put (p ++ [x]) n).label? a = if a = p ++ [x] then some n.label else t.label? a := by
  obtain ⟨es, hes⟩ := label?_eq_directory_iff.mp hp
  have hat : (t.put (p ++ [x]) n).node? (p ++ [x]) = some n := by
    rw [put, node?_of_directory (node?_alter_below hes),
      Node.lookup_alterEntry_self fun _ => rfl]
  by_cases ha : p ++ [x] <+: a
  · obtain ⟨below, rfl⟩ := ha
    cases below with
    | nil => rw [List.append_nil, if_pos rfl, label?_of_node? hat]
    | cons y below =>
      have hne : p ++ [x] ++ y :: below ≠ p ++ [x] := by simp
      rw [if_neg hne, label?, label?, node?_append t, node?_append, hat]
      cases hm : t.node? (p ++ [x]) with
      | none => exact congrArg _ (hnew y below)
      | some m => exact congrArg _ ((hnew y below).trans (hold m hm y below).symm)
  · have hne : a ≠ p ++ [x] := by
      rintro rfl
      exact ha (List.prefix_refl _)
    rw [put, label?_alter_outside ha, if_neg hne]

end FileTree

end QueryValidator
