import Mathlib.Data.List.Induction
import QueryValidator.Proofs.Host.Routes

/-!
# The way from one place to another

A place is the list of the names from the root to it. The place of a path is where its parts lead
from the root (`absoluteParts_eq_placeOf`), and the way that `relativeText` writes leads from the
one place to the other (`follow_relativeText`): up to where the two ways from the root part, and
down from there. Whether a `.` stands in front of the way down is told by its text alone
(`splitAt_relativeText_of_upward`, `splitAt_relativeText_of_downward`).
-/

namespace QueryValidator.Path

/-! ### Places -/

/-- One segment of a way: `.` stays, `..` goes to the parent, and any other goes below. -/
def step (place : List Text) (segment : Text) : List Text :=
  if segment = ['.'] then place
  else if segment = ['.', '.'] then place.dropLast
  else place ++ [segment]

/-- Where the way leads from the place. -/
def follow (place : List Text) (way : Text) : List Text :=
  (Text.splitAt '/' way).foldl step place

/-- Where the parts of a path lead from the root if `workingDir` is the current directory. -/
def placeOf (workingDir p : Text) : List Text :=
  (FileTree.Route.partsOf (join workingDir p)).foldl step []

theorem isVoid_eq_false_iff {part : Text} : isVoid part = false ↔ part ≠ [] ∧ part ≠ ['.'] := by
  simp [isVoid]

theorem step_name {name : Text} (h : IsFileName name) (place : List Text) :
    step place name = place ++ [name] := by
  rw [step, if_neg (isVoid_eq_false_iff.mp h.2.1).2, if_neg h.2.2]

theorem foldl_step_names {names : List Text} (h : ∀ name ∈ names, IsFileName name)
    (place : List Text) : names.foldl step place = place ++ names := by
  induction names generalizing place with
  | nil => exact (List.append_nil place).symm
  | cons name names ih =>
    rw [List.foldl_cons, step_name (h name List.mem_cons_self),
      ih fun x hx => h x (List.mem_cons_of_mem name hx), List.append_assoc, List.singleton_append]

/-- As many steps up as there are names below the place lead there. -/
theorem foldl_step_ups (place names : List Text) :
    (List.replicate names.length ['.', '.']).foldl step (place ++ names) = place := by
  induction names using List.reverseRecOn with
  | nil => exact List.append_nil place
  | append_singleton names name ih =>
    have hup : step (place ++ (names ++ [name])) ['.', '.'] = place ++ names := by
      show (place ++ (names ++ [name])).dropLast = _
      rw [← List.append_assoc, List.dropLast_concat]
    rw [List.length_append, List.length_singleton, List.replicate_succ, List.foldl_cons, hup, ih]

theorem descend_componentOf {part : Text} (h : part ≠ ['.']) (place : List Text) :
    descend place (componentOf part) = step place part := by
  rw [step, if_neg h, componentOf]
  split <;> rfl

/-- A part that is a dot may be left out or gone along. -/
theorem foldl_descend_parts (parts place : List Text) :
    ((parts.filter fun part => !isVoid part).map componentOf).foldl descend place =
      (parts.filter fun part => !part.isEmpty).foldl step place := by
  induction parts generalizing place with
  | nil => rfl
  | cons part parts ih =>
    by_cases hempty : part = []
    · rw [hempty]
      exact ih place
    by_cases hdot : part = ['.']
    · rw [hdot]
      exact ih place
    have hvoid : isVoid part = false := isVoid_eq_false_iff.mpr ⟨hempty, hdot⟩
    rw [List.filter_cons_of_pos (by simp [hvoid]), List.filter_cons_of_pos (by simp [hempty]),
      List.map_cons, List.foldl_cons, List.foldl_cons, descend_componentOf hdot, ih]

theorem foldl_descend_components (p : Text) (place : List Text) :
    (components p).foldl descend place = (FileTree.Route.partsOf p).foldl step place := by
  have hfront : (front (Text.splitAt '/' p)).foldl descend place = place := by
    unfold front
    split <;> rfl
  rw [components_eq, List.foldl_append, hfront]
  exact foldl_descend_parts _ place

theorem absoluteParts_eq_placeOf {p : Text} (hne : p ≠ []) (workingDir : Text) :
    absoluteParts workingDir p = placeOf workingDir p := by
  rw [absoluteParts, if_neg (by simpa using hne), placeOf]
  cases habs : isAbsolute p with
  | true => rw [if_pos rfl, join, if_pos habs, normalParts, foldl_descend_components]
  | false =>
    rw [if_neg Bool.false_ne_true, FileTree.Route.partsOf_join habs, List.foldl_append, normalParts,
      foldl_descend_components, foldl_descend_components]

theorem isFileName_step {place : List Text} {segment : Text}
    (hplace : ∀ name ∈ place, IsFileName name) (hslash : '/' ∉ segment) (hne : segment ≠ []) :
    ∀ name ∈ step place segment, IsFileName name := by
  unfold step
  split
  · exact hplace
  · next hdot =>
    split
    · exact fun name hname => hplace name (List.dropLast_subset _ hname)
    · next hup =>
      rw [List.forall_mem_append, List.forall_mem_singleton]
      exact ⟨hplace, hslash, isVoid_eq_false_iff.mpr ⟨hne, hdot⟩, hup⟩

/-- A place is one of names: nothing in it stays or goes up. -/
theorem isFileName_of_mem_placeOf {workingDir p : Text} :
    ∀ name ∈ placeOf workingDir p, IsFileName name := by
  have hparts : ∀ part ∈ FileTree.Route.partsOf (join workingDir p), '/' ∉ part ∧ part ≠ [] := by
    intro part hpart
    obtain ⟨hsplit, hne⟩ := List.mem_filter.mp hpart
    exact ⟨Text.not_mem_of_mem_splitAt hsplit, by simpa using hne⟩
  exact List.foldlRecOn (motive := fun place => ∀ name ∈ place, IsFileName name) _ _
    (fun _ hnil => absurd hnil List.not_mem_nil)
    fun place hplace part hpart =>
      isFileName_step hplace (hparts part hpart).1 (hparts part hpart).2

/-! ### Where two ways part -/

/-- The place is above both others, and below every place that is. -/
structure IsMeeting (meeting origin target : List Text) : Prop where
  left : meeting <+: origin
  right : meeting <+: target
  deepest : ∀ place, place <+: origin → place <+: target → place <+: meeting

theorem exists_meeting (origin target : List Text) : ∃ meeting ups downs,
    dropCommon origin target = (ups, downs) ∧ origin = meeting ++ ups ∧
      target = meeting ++ downs ∧ IsMeeting meeting origin target := by
  fun_induction dropCommon origin target with
  | case1 as b bs ih =>
    obtain ⟨meeting, ups, downs, hdrop, rfl, rfl, hmeeting⟩ := ih
    refine ⟨b :: meeting, ups, downs, hdrop, rfl, rfl, List.prefix_append _ _,
      List.prefix_append _ _, ?_⟩
    rintro (_ | ⟨x, place⟩) horigin htarget
    · exact List.nil_prefix
    · obtain ⟨rfl, hplace⟩ := List.cons_prefix_cons.mp horigin
      exact List.cons_prefix_cons.mpr
        ⟨rfl, hmeeting.deepest place hplace (List.cons_prefix_cons.mp htarget).2⟩
  | case2 a as b bs hne =>
    refine ⟨[], _, _, rfl, rfl, rfl, List.nil_prefix, List.nil_prefix, ?_⟩
    rintro (_ | ⟨x, place⟩) horigin htarget
    · exact List.nil_prefix
    · obtain ⟨rfl, -⟩ := List.cons_prefix_cons.mp horigin
      exact absurd (List.cons_prefix_cons.mp htarget).1 hne
  | case3 as bs hnil =>
    refine ⟨[], _, _, rfl, rfl, rfl, List.nil_prefix, List.nil_prefix, ?_⟩
    rintro (_ | ⟨x, place⟩) ⟨as', rfl⟩ ⟨bs', rfl⟩
    · exact List.nil_prefix
    · exact absurd rfl (hnil x _ x _ rfl)

/-- The way to a place below goes down only. -/
theorem dropCommon_append (place names : List Text) :
    dropCommon place (place ++ names) = ([], names) := by
  induction place with
  | nil => cases names <;> rfl
  | cons name place ih => rw [List.cons_append, dropCommon, if_pos rfl, ih]

/-! ### The way between two places -/

variable {origin target ups downs : List Text}

/-- The way down begins like one that goes up: its first name begins with two dots. -/
def LooksUpward (downs : List Text) : Prop :=
  ∃ name rest, downs = name :: rest ∧ ['.', '.'] <+: name

theorem relativeText_eq (h : dropCommon origin target = (ups, downs)) :
    relativeText origin target =
      let t := Text.joinWith ['/'] (List.replicate ups.length ['.', '.'] ++ downs)
      if t.isEmpty then ['.'] else if ['.', '.'].isPrefixOf t then t else '.' :: '/' :: t := by
  have hups : (ups.map fun _ => ['.', '.']) = List.replicate ups.length ['.', '.'] :=
    List.map_const'
  simp only [relativeText, h, hups]
  rfl

/-- A way that begins with two dots is written as it is. -/
theorem splitAt_relativeText_of_upward (h : dropCommon origin target = (ups, downs))
    (hdowns : ∀ name ∈ downs, IsFileName name) (hup : ups ≠ [] ∨ LooksUpward downs) :
    Text.splitAt '/' (relativeText origin target) =
      List.replicate ups.length ['.', '.'] ++ downs := by
  obtain ⟨first, rest, hparts, hdots⟩ : ∃ first rest,
      List.replicate ups.length ['.', '.'] ++ downs = first :: rest ∧ ['.', '.'] <+: first := by
    cases ups with
    | nil => exact hup.resolve_left fun hne => hne rfl
    | cons up ups => exact ⟨_, _, rfl, List.prefix_refl _⟩
  have hslash : ∀ part ∈ List.replicate ups.length ['.', '.'] ++ downs, '/' ∉ part := by
    rw [List.forall_mem_append]
    refine ⟨fun part hpart => ?_, fun part hpart => (hdowns part hpart).1⟩
    rw [List.eq_of_mem_replicate hpart]
    decide
  have hprefix : ['.', '.'] <+:
      Text.joinWith ['/'] (List.replicate ups.length ['.', '.'] ++ downs) := by
    rw [hparts]
    exact (Text.prefix_joinWith_cons_iff (by decide)).mpr hdots
  have hnonempty : (Text.joinWith ['/']
      (List.replicate ups.length ['.', '.'] ++ downs)).isEmpty = false := by
    obtain ⟨rest, hrest⟩ := hprefix
    rw [← hrest]
    rfl
  rw [relativeText_eq h]
  simp only [hnonempty, List.isPrefixOf_iff_prefix, hprefix, Bool.false_eq_true, if_false, if_true]
  exact Text.splitAt_joinWith (by simp [hparts]) hslash

/-- Any other way has a dot in front. -/
theorem splitAt_relativeText_of_downward (h : dropCommon origin target = ([], downs))
    (hdowns : ∀ name ∈ downs, IsFileName name) (hdown : ¬ LooksUpward downs) :
    Text.splitAt '/' (relativeText origin target) = ['.'] :: downs := by
  rw [relativeText_eq h]
  cases downs with
  | nil => rfl
  | cons name rest =>
    have hprefix : ¬ ['.', '.'] <+: Text.joinWith ['/'] (name :: rest) := by
      rw [Text.prefix_joinWith_cons_iff (by decide)]
      exact fun hdots => hdown ⟨name, rest, rfl, hdots⟩
    have hsplit := Text.splitAt_joinWith (List.cons_ne_nil name rest) fun x hx => (hdowns x hx).1
    have hnonempty : (Text.joinWith ['/'] (name :: rest)).isEmpty = false := by
      rw [List.isEmpty_eq_false_iff]
      intro hnil
      rw [hnil] at hsplit
      have hname := (hdowns name List.mem_cons_self).2.1
      rw [← (List.cons_eq_cons.mp hsplit).1] at hname
      cases hname
    simp only [List.length_nil, List.replicate_zero, List.nil_append, hnonempty,
      List.isPrefixOf_iff_prefix, hprefix, Bool.false_eq_true, if_false]
    show Text.splitAt '/' (['.'] ++ '/' :: Text.joinWith ['/'] (name :: rest)) = _
    rw [Text.splitAt_append_cons, hsplit]
    rfl

/-- **The way leads to its target**: it goes up to where the two places meet, by as many steps as
the origin is below, and from there down only. -/
theorem follow_relativeText (htarget : ∀ name ∈ target, IsFileName name) :
    follow origin (relativeText origin target) = target ∧
      ∃ meeting rest, IsMeeting meeting origin target ∧
        Text.splitAt '/' (relativeText origin target) =
          List.replicate (origin.length - meeting.length) ['.', '.'] ++ rest ∧
        ['.', '.'] ∉ rest := by
  obtain ⟨meeting, ups, downs, hdrop, rfl, rfl, hmeeting⟩ := exists_meeting origin target
  have hdowns : ∀ name ∈ downs, IsFileName name := (List.forall_mem_append.mp htarget).2
  have hno : ['.', '.'] ∉ downs := fun hmem => (hdowns _ hmem).2.2 rfl
  have hlength : (meeting ++ ups).length - meeting.length = ups.length := by
    rw [List.length_append, Nat.add_sub_cancel_left]
  obtain ⟨rest, hsplit, hrest⟩ : ∃ rest,
      Text.splitAt '/' (relativeText (meeting ++ ups) (meeting ++ downs)) =
        List.replicate ups.length ['.', '.'] ++ rest ∧
      (rest = downs ∨ rest = ['.'] :: downs) := by
    by_cases hup : ups ≠ [] ∨ LooksUpward downs
    · exact ⟨downs, splitAt_relativeText_of_upward hdrop hdowns hup, Or.inl rfl⟩
    · obtain ⟨hups, hdown⟩ := not_or.mp hup
      obtain rfl := not_not.mp hups
      exact ⟨_, splitAt_relativeText_of_downward hdrop hdowns hdown, Or.inr rfl⟩
  constructor
  · rw [follow, hsplit, List.foldl_append, foldl_step_ups]
    -- a dot in front stays where it is
    rcases hrest with rfl | rfl <;> exact foldl_step_names hdowns meeting
  · refine ⟨meeting, rest, hmeeting, hlength ▸ hsplit, ?_⟩
    rcases hrest with rfl | rfl
    · exact hno
    · exact List.not_mem_cons_of_ne_of_not_mem (by decide) hno

/-! ### Relative specifiers -/

/-- A module loader resolves the specifier from the module that it stands in. -/
def IsRelative (specifier : Text) : Prop :=
  specifier = "." ∨ specifier = ".." ∨ "./".toList <+: specifier ∨ "../".toList <+: specifier

instance (specifier : Text) : Decidable (IsRelative specifier) :=
  inferInstanceAs (Decidable (_ ∨ _ ∨ _ ∨ _))

/-- A specifier is relative if its first segment is. -/
theorem isRelative_iff {specifier first : Text} {rest : List Text}
    (h : Text.splitAt '/' specifier = first :: rest) :
    IsRelative specifier ↔ first = ['.'] ∨ first = ['.', '.'] := by
  have hbehind : ∀ segment : Text, '/' ∉ segment → segment ++ ['/'] <+: specifier →
      first = segment := by
    rintro segment hslash ⟨r, rfl⟩
    rw [List.append_assoc, List.singleton_append, Text.splitAt_append_cons,
      Text.splitAt_of_not_mem hslash] at h
    exact (List.cons_eq_cons.mp h).1.symm
  constructor
  · rintro (rfl | rfl | hdot | hdots)
    · exact Or.inl (List.cons_eq_cons.mp h).1.symm
    · exact Or.inr (List.cons_eq_cons.mp h).1.symm
    · exact Or.inl (hbehind ['.'] (by decide) hdot)
    · exact Or.inr (hbehind ['.', '.'] (by decide) hdots)
  · intro hfirst
    have hjoin := Text.joinWith_splitAt '/' specifier
    rw [h] at hjoin
    cases rest with
    | nil =>
      rw [Text.joinWith_singleton] at hjoin
      rw [← hjoin]
      exact hfirst.imp id Or.inl
    | cons next rest =>
      rw [Text.joinWith_cons_cons, ← List.append_assoc] at hjoin
      refine Or.inr (Or.inr ?_)
      rw [← hjoin]
      rcases hfirst with rfl | rfl
      · exact Or.inl (List.prefix_append _ _)
      · exact Or.inr (List.prefix_append _ _)

/-- **When the way is relative**: always but for a target below the origin whose first name from
there on begins with two dots. -/
theorem isRelative_relativeText (htarget : ∀ name ∈ target, IsFileName name) :
    IsRelative (relativeText origin target) ↔
      ¬ ∃ name rest, target = origin ++ name :: rest ∧ ['.', '.'] <+: name := by
  obtain ⟨meeting, ups, downs, hdrop, rfl, rfl, -⟩ := exists_meeting origin target
  have hdowns : ∀ name ∈ downs, IsFileName name := (List.forall_mem_append.mp htarget).2
  cases ups with
  | cons up ups =>
    have hsplit := splitAt_relativeText_of_upward hdrop hdowns (Or.inl (List.cons_ne_nil up ups))
    refine iff_of_true ((isRelative_iff hsplit).mpr (Or.inr rfl)) ?_
    rintro ⟨name, rest, heq, -⟩
    rw [heq, dropCommon_append] at hdrop
    cases hdrop
  | nil =>
    rw [List.append_nil] at hdrop ⊢
    have hiff : (∃ name rest, meeting ++ downs = meeting ++ name :: rest ∧ ['.', '.'] <+: name) ↔
        LooksUpward downs := by
      simp only [List.append_cancel_left_eq, LooksUpward]
    rw [hiff]
    by_cases hup : LooksUpward downs
    · have hsplit := splitAt_relativeText_of_upward hdrop hdowns (Or.inr hup)
      refine iff_of_false ?_ (not_not.mpr hup)
      obtain ⟨name, rest, rfl, hdots⟩ := hup
      rw [isRelative_iff hsplit, not_or]
      refine ⟨?_, (hdowns name List.mem_cons_self).2.2⟩
      rintro rfl
      exact absurd hdots (by decide)
    · have hsplit := splitAt_relativeText_of_downward hdrop hdowns hup
      exact iff_of_true ((isRelative_iff hsplit).mpr (Or.inl rfl)) hup

end QueryValidator.Path
