import QueryValidator.Json.Scan
import Mathlib.Data.List.Basic

/-!
# Single-quoted literals

A reader for the single-quoted string literals of modules, as strict code has them. A literal ends
at the first quote that no backslash stands before, and goes over no line; a backslash begins an
escape or hides the end of a line. What it denotes is a list of 16-bit units. The main statement is
about a text that is put between quotes as it is (`read_enclosed_iff`): the literal denotes it only
if it has none of the characters that mean something else there, because an escape is longer than
what it denotes, and a quote ends the literal too early.
-/

namespace QueryValidator.Literal

/-! ### Units -/

/-- The 16-bit units of the character with the number `n`, two of them beyond the first plane. -/
def unitsOf (n : Nat) : List Nat :=
  if n < 0x10000 then [n] else [0xD800 + (n - 0x10000) / 0x400, 0xDC00 + (n - 0x10000) % 0x400]

def units (t : Text) : List Nat :=
  t.flatMap fun c => unitsOf c.toNat

theorem one_le_length_unitsOf (n : Nat) : 1 ≤ (unitsOf n).length := by
  unfold unitsOf
  split <;> simp

theorem length_unitsOf_le (n : Nat) : (unitsOf n).length ≤ 2 := by
  unfold unitsOf
  split <;> simp

theorem length_units_cons (c : Char) (t : Text) :
    (units (c :: t)).length = (unitsOf c.toNat).length + (units t).length := by
  rw [units, List.flatMap_cons, List.length_append]
  rfl

/-! ### The reader -/

/-- What a backslash and `c` denote if they are not the beginning of a longer escape. -/
def shortEscape (c : Char) : List Nat :=
  if c = 'b' then [8]
  else if c = 't' then [9]
  else if c = 'n' then [10]
  else if c = 'v' then [11]
  else if c = 'f' then [12]
  else if c = 'r' then [13]
  else unitsOf c.toNat

/-- A line ends with the character. -/
def isLineEnd (c : Char) : Bool :=
  c == '\n' || c == '\r' || c.toNat == 0x2028 || c.toNat == 0x2029

/-- Where the reader stands: between characters, after a backslash, before one digit and `left` more
of an escape of fixed length, after the `u` of an escape, or in its braces. -/
inductive State where
  | plain
  | escape
  | digits (left value : Nat)
  | unicode
  | braces (value : Option Nat)

/-- The given units in front of what is read. -/
def withUnits (us : List Nat) (r : Option (List Nat × Text)) : Option (List Nat × Text) :=
  r.map fun (vs, rest) => (us ++ vs, rest)

/-- Reads to the closing quote. -/
def readFrom : State → Text → Option (List Nat × Text)
  | _, [] => none
  | .plain, c :: r =>
    if c = '\'' then some ([], r)
    else if c = '\\' then readFrom .escape r
    else if c = '\n' ∨ c = '\r' then none
    else withUnits (unitsOf c.toNat) (readFrom .plain r)
  | .escape, c :: r =>
    if c = 'x' then readFrom (.digits 1 0) r
    else if c = 'u' then readFrom .unicode r
    else if c.isDigit then
      -- zero alone is an escape, and no octal numbers are
      if c = '0' ∧ ¬ r.head?.any Char.isDigit then withUnits [0] (readFrom .plain r) else none
    else if c = '\r' ∧ r.head? = some '\n' then readFrom .escape r
    else if isLineEnd c then readFrom .plain r
    else withUnits (shortEscape c) (readFrom .plain r)
  | .digits left value, c :: r =>
    (Json.hexDigit? c).bind fun d =>
      if left = 0 then withUnits [value * 16 + d] (readFrom .plain r)
      else readFrom (.digits (left - 1) (value * 16 + d)) r
  | .unicode, c :: r =>
    if c = '{' then readFrom (.braces none) r
    else (Json.hexDigit? c).bind fun d => readFrom (.digits 2 d) r
  | .braces value, c :: r =>
    if c = '}' then value.bind fun n => withUnits (unitsOf n) (readFrom .plain r)
    else (Json.hexDigit? c).bind fun d =>
      if value.getD 0 * 16 + d ≤ 0x10FFFF then readFrom (.braces (some (value.getD 0 * 16 + d))) r
      else none

/-- The literal at the front and the text after it. -/
def read : Text → Option (List Nat × Text)
  | '\'' :: r => readFrom .plain r
  | _ => none

/-! ### Length of what is read -/

theorem withUnits_eq_some_iff {us vs : List Nat} {r : Option (List Nat × Text)} {rest : Text} :
    withUnits us r = some (vs, rest) ↔ ∃ ws, r = some (ws, rest) ∧ vs = us ++ ws := by
  unfold withUnits
  rw [Option.map_eq_some_iff]
  constructor
  · rintro ⟨⟨ws, rest'⟩, hr, h⟩
    cases h
    exact ⟨ws, hr, rfl⟩
  · rintro ⟨ws, hr, rfl⟩
    exact ⟨(ws, rest), hr, rfl⟩

theorem length_shortEscape_le (c : Char) : (shortEscape c).length ≤ (unitsOf c.toNat).length := by
  have hone := one_le_length_unitsOf c.toNat
  unfold shortEscape
  split_ifs <;> first | exact hone | exact Nat.le_refl _

/-- How many units more than the rest of the literal has may be denoted: those of the number in
braces are denoted at the closing brace. -/
def State.debt : State → Nat
  | .braces (some _) => 1
  | _ => 0

/-- What stands behind a specifier. -/
abbrev closing (rest : Text) : Text := '\'' :: ';' :: '\n' :: rest

/-- Inside an escape the quote does not end the literal, and the line ends before another does. -/
theorem readFrom_closing {s : State} {rest r : Text} {us : List Nat}
    (h : readFrom s (closing rest) = some (us, r)) : us = [] := by
  cases s with
  | plain =>
    cases h
    rfl
  | escape => cases h
  | digits left value => cases h
  | unicode => cases h
  | braces value => cases h

/-- No literal denotes more units than are written. -/
theorem length_readFrom_le {s : State} {t rest r : Text} {us : List Nat}
    (h : readFrom s (t ++ closing rest) = some (us, r)) :
    us.length ≤ (units t).length + s.debt := by
  induction t generalizing s us with
  | nil =>
    rw [readFrom_closing h]
    exact Nat.zero_le _
  | cons c t ih =>
    have hc := one_le_length_unitsOf c.toNat
    -- `c` denotes nothing yet, or no more than itself
    have hskip : ∀ {s' : State}, s'.debt = 0 → readFrom s' (t ++ closing rest) = some (us, r) →
        us.length ≤ (unitsOf c.toNat).length + (units t).length := by
      intro s' hdebt hs
      have hrest := ih hs
      omega
    have hemit : ∀ {vs : List Nat},
        withUnits vs (readFrom .plain (t ++ closing rest)) = some (us, r) →
        us.length ≤ vs.length + (units t).length := by
      intro vs hvs
      obtain ⟨ws, hws, rfl⟩ := withUnits_eq_some_iff.mp hvs
      rw [List.length_append]
      exact Nat.add_le_add_left (ih hws) _
    rw [length_units_cons]
    rw [List.cons_append] at h
    cases s with
    | plain =>
      rw [readFrom] at h
      split_ifs at h
      · cases h
        exact Nat.zero_le _
      · exact hskip rfl h
      · exact hemit h
    | escape =>
      rw [readFrom] at h
      split_ifs at h
      · exact hskip rfl h
      · exact hskip rfl h
      · exact Nat.le_trans (hemit h) (Nat.add_le_add_right hc _)
      · exact hskip rfl h
      · exact hskip rfl h
      · exact Nat.le_trans (hemit h) (Nat.add_le_add_right (length_shortEscape_le c) _)
    | digits left value =>
      rw [readFrom] at h
      obtain ⟨d, -, h⟩ := Option.bind_eq_some_iff.mp h
      split_ifs at h
      · exact Nat.le_trans (hemit h) (Nat.add_le_add_right hc _)
      · exact hskip rfl h
    | unicode =>
      rw [readFrom] at h
      split_ifs at h
      · exact hskip rfl h
      · obtain ⟨d, -, h⟩ := Option.bind_eq_some_iff.mp h
        exact hskip rfl h
    | braces value =>
      have hdebt : ∀ n, (State.braces (some n)).debt = 1 := fun _ => rfl
      rw [readFrom] at h
      split_ifs at h
      · obtain ⟨n, rfl, hn⟩ := Option.bind_eq_some_iff.mp h
        have hlen := hemit hn
        have htwo := length_unitsOf_le n
        rw [hdebt]
        omega
      · obtain ⟨d, -, h⟩ := Option.bind_eq_some_iff.mp h
        split_ifs at h
        have hrest := ih h
        rw [hdebt] at hrest
        omega

/-! ### Texts between quotes -/

/-- The character stands for itself in a literal. -/
def IsPlain (c : Char) : Prop :=
  c ≠ '\'' ∧ c ≠ '\\' ∧ c ≠ '\n' ∧ c ≠ '\r'

instance (c : Char) : Decidable (IsPlain c) :=
  inferInstanceAs (Decidable (_ ∧ _ ∧ _ ∧ _))

theorem isPlain_of_all {t : Text} (h : (t.all fun c => decide (IsPlain c)) = true) :
    ∀ c ∈ t, IsPlain c :=
  fun c hc => of_decide_eq_true (List.all_eq_true.mp h c hc)

theorem readFrom_plain {c : Char} (h : IsPlain c) (r : Text) :
    readFrom .plain (c :: r) = withUnits (unitsOf c.toNat) (readFrom .plain r) := by
  obtain ⟨hquote, hslash, hfeed, hreturn⟩ := h
  rw [readFrom, if_neg hquote, if_neg hslash, if_neg (not_or.mpr ⟨hfeed, hreturn⟩)]

theorem readFrom_of_plain {t : Text} (h : ∀ c ∈ t, IsPlain c) (rest : Text) :
    readFrom .plain (t ++ '\'' :: rest) = some (units t, rest) := by
  induction t with
  | nil => rfl
  | cons c t ih =>
    obtain ⟨hc, ht⟩ := List.forall_mem_cons.mp h
    rw [List.cons_append, readFrom_plain hc, ih ht]
    rfl

/-- A character that does not stand for itself ends the literal, or makes it denote fewer units. -/
theorem length_readFrom_of_not_plain {c : Char} {t rest r : Text} {us : List Nat}
    (hc : ¬ IsPlain c) (h : readFrom .plain (c :: (t ++ closing rest)) = some (us, r)) :
    us.length ≤ (units t).length := by
  rw [readFrom] at h
  split_ifs at h with hquote hslash hline
  · cases h
    exact Nat.zero_le _
  · exact length_readFrom_le h
  · exact absurd ⟨hquote, hslash, not_or.mp hline⟩ hc

theorem isPlain_of_readFrom {t rest r : Text}
    (h : readFrom .plain (t ++ closing rest) = some (units t, r)) : ∀ c ∈ t, IsPlain c := by
  induction t with
  | nil => exact fun c hc => absurd hc List.not_mem_nil
  | cons c t ih =>
    have hplain : IsPlain c := by
      by_contra hother
      have hshorter := length_readFrom_of_not_plain hother h
      have hpos := one_le_length_unitsOf c.toNat
      rw [length_units_cons] at hshorter
      omega
    rw [List.cons_append, readFrom_plain hplain] at h
    obtain ⟨ws, hws, heq⟩ := withUnits_eq_some_iff.mp h
    have hrest : units t = ws := List.append_cancel_left heq
    exact List.forall_mem_cons.mpr ⟨hplain, ih (hrest ▸ hws)⟩

/-- **When a text denotes itself**: put between quotes, with a semicolon and the end of the line
behind them, it is read back exactly if all its characters stand for themselves. -/
theorem read_enclosed_iff {t rest : Text} :
    (∃ after, read ('\'' :: (t ++ closing rest)) = some (units t, ';' :: '\n' :: after)) ↔
      ∀ c ∈ t, IsPlain c := by
  constructor
  · rintro ⟨after, h⟩
    exact isPlain_of_readFrom h
  · intro h
    exact ⟨rest, readFrom_of_plain h _⟩

example : read "'it\\'s';" = some (units "it's", [';']) := by decide

example : read "'it's';" = some (units "it", ['s', '\'', ';']) := by decide

end QueryValidator.Literal
