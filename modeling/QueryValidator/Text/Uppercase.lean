import QueryValidator.Text
import QueryValidator.Text.UppercaseTable

/-!
# Upper case

`Text.upperOf c` is the upper case form of a character, which may be more than one character;
`Text.capitalized` puts the first character of a text into upper case.
-/

namespace QueryValidator.Text

/-- The code point of the run's upper case letter for `n`, if the run has `n`. -/
def upperInRun (n : Nat) : Nat × Nat × Nat × Nat → Option Nat
  | (first, last, step, target) =>
    if first ≤ n ∧ n ≤ last ∧ (n - first) % step = 0 then some (target + (n - first)) else none

/-- The upper case form of `c`; ASCII is decided without the tables. -/
def upperOf (c : Char) : Text :=
  if c.toNat < 128 then [c.toUpper]
  else match upperRuns.findSome? (upperInRun c.toNat) with
    | some n => [Char.ofNat n]
    | none =>
      match upperExpansions.lookup c.toNat with
      | some ns => ns.map Char.ofNat
      | none => [c]

def capitalized : Text → Text
  | [] => []
  | c :: r => upperOf c ++ r

end QueryValidator.Text
