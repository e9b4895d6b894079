import QueryValidator.Text
import QueryValidator.Number.Binary64

/-!
# Shortest decimals

`Magnitude.digits x` is the shortest decimal that reads back as `x`, and of those the nearest to
`x`: with 1, 2, … digits, the two neighbours of `x` on the decimal grid are tried against the
interval of numbers that round to `x`.  `Binary64.text` writes it with a point or with an exponent.
-/

namespace QueryValidator

namespace Magnitude

/-- `mantissa * 2 ^ exponent * 10 ^ k` as a fraction. -/
def timesTen (m : Nat) (e k : Int) : Nat × Nat :=
  let (n, d) := scaled m 1 e
  if k < 0 then (n, d * Nat.pow 10 k.natAbs) else (n * Nat.pow 10 k.natAbs, d)

/-- The greatest `k` with `10 ^ k ≤ x`, for `x` other than zero. -/
def floorLog10 (x : Magnitude) : Int :=
  let (n, d) := timesTen x.mantissa x.exponent 400
  ((Nat.toDigits 10 (n / d)).length : Int) - 401

/-- `c` times `10 ^ k` rounds to `x`: it is no farther from `x` than half the way to the next
double, and nearer than that if the mantissa is odd.  Distances are measured in quarters of the
last binary place. -/
def roundsTo (x : Magnitude) (k : Int) (c : Nat) : Bool :=
  let (n, d) := timesTen 1 (2 - x.exponent) k
  let v := 4 * x.mantissa
  let below := if x.mantissa = leastMantissa ∧ x.exponent > -1074 then v - 1 else v - 2
  let above := v + 2
  if x.mantissa % 2 = 0 then below * d ≤ c * n && c * n ≤ above * d
  else below * d < c * n && c * n < above * d

/-- The neighbour of `x` on the grid of multiples of `10 ^ k` that rounds to `x`; of two the
nearer, and of two equally near ones the even. -/
def onGrid? (x : Magnitude) (k : Int) : Option Nat :=
  let (n, d) := timesTen x.mantissa x.exponent (-k)
  let lo := n / d
  let hi := lo + 1
  match roundsTo x k lo, roundsTo x k hi with
  | true, true => some (divideToEven n d)
  | true, false => some lo
  | false, true => some hi
  | false, false => none

/-- The first of the grids with `count`, `count + 1`, … digits, `tries` of them, that has a
neighbour of `x` which rounds to `x`. -/
def shortestFrom (x : Magnitude) (e : Int) : (tries count : Nat) → Nat × Int
  | 0, _ => (0, 0)
  | t + 1, count =>
    let k := e - count + 1
    match onGrid? x k with
    | some c => (c, k)
    | none => shortestFrom x e t (count + 1)

/-- The digits without the zeros at their end. -/
def trimmed (ds : Text) : Text :=
  (ds.reverse.dropWhile (· == '0')).reverse

/-- The significant digits of the shortest decimal and the exponent of the first digit. -/
def digits (x : Magnitude) : Text × Int :=
  let shortest := shortestFrom x (floorLog10 x) 17 1
  let ds := Text.ofNat shortest.1
  (trimmed ds, shortest.2 + ds.length - 1)

end Magnitude

namespace Binary64

/-- The digits with a point behind the first, unless it is the only one. -/
def pointed : Text → Text
  | c :: d :: r => c :: '.' :: d :: r
  | ds => ds

/-- From `10 ^ -5` up to `10 ^ 16` the decimal has a point and a digit on each side of it; outside
it has one digit before the point and a signed exponent. -/
def magnitudeText (x : Magnitude) : Text :=
  if x.isZero then "0.0"
  else
    let (ds, e) := x.digits
    if 0 ≤ e ∧ e ≤ 15 then
      let whole := e.toNat + 1
      if ds.length ≤ whole then ds ++ List.replicate (whole - ds.length) '0' ++ ".0"
      else ds.take whole ++ '.' :: ds.drop whole
    else if -5 ≤ e ∧ e < 0 then "0." ++ List.replicate (e.natAbs - 1) '0' ++ ds
    else
      pointed ds ++ (if e < 0 then "e-" else "e+") ++ Text.ofNat e.natAbs

def text (x : Binary64) : Text :=
  (if x.negative then ['-'] else []) ++ magnitudeText x.magnitude

end Binary64

end QueryValidator
