/-!
# Binary floating point numbers of 64 bits

A finite double is `mantissa * 2 ^ exponent` with a sign.  Arithmetic is exact arithmetic of natural
numbers followed by one rounding: `roundRatio num den` is the double nearest to `num / den`, ties
going to the even mantissa, and `none` if it is out of range.
-/

namespace QueryValidator

/-- The absolute value of a finite double: `mantissa * 2 ^ exponent`.  The mantissa has 53 bits
unless the exponent is the least one, `-1074`. -/
structure Magnitude where
  mantissa : Nat
  exponent : Int
deriving DecidableEq, Repr

structure Binary64 where
  negative : Bool
  magnitude : Magnitude
deriving DecidableEq, Repr

namespace Magnitude

def zero : Magnitude := ⟨0, -1074⟩

/-- The least mantissa of 53 bits, `2 ^ 52`. -/
def leastMantissa : Nat := 4503599627370496

def isZero (x : Magnitude) : Bool := x.mantissa == 0

/-- `num * 2 ^ e / den` as a fraction of natural numbers. -/
def scaled (num den : Nat) (e : Int) : Nat × Nat :=
  if e < 0 then (num, den * Nat.pow 2 e.natAbs) else (num * Nat.pow 2 e.natAbs, den)

/-- `n / d` to the nearest natural number, a half going to the even one. -/
def divideToEven (n d : Nat) : Nat :=
  let m := n / d
  let r := n % d
  if 2 * r > d || (2 * r == d && m % 2 == 1) then m + 1 else m

/-- The greatest `e` with `2 ^ e ≤ num / den`. -/
def floorLog2 (num den : Nat) : Int :=
  let e : Int := (Nat.log2 num : Int) - (Nat.log2 den : Int)
  let (n, d) := scaled num den (-e)
  if d ≤ n then e else e - 1

/-- The double nearest to `num / den`, `none` above the greatest one. -/
def roundRatio (num den : Nat) : Option Magnitude :=
  if num = 0 then some zero
  else
    let q := max (-1074) (floorLog2 num den - 52)
    let (n, d) := scaled num den (-q)
    let m := divideToEven n d
    let x : Magnitude := if m = 2 * leastMantissa then ⟨leastMantissa, q + 1⟩ else ⟨m, q⟩
    if x.exponent > 971 then none else some x

def ofNat (n : Nat) : Option Magnitude :=
  roundRatio n 1

def mul (x y : Magnitude) : Option Magnitude :=
  let (n, d) := scaled (x.mantissa * y.mantissa) 1 (x.exponent + y.exponent)
  roundRatio n d

/-- `x / y` for `y` other than zero. -/
def div (x y : Magnitude) : Option Magnitude :=
  let (n, d) := scaled x.mantissa y.mantissa (x.exponent - y.exponent)
  roundRatio n d

/-- The double nearest to `10 ^ k`. -/
def powerOfTen (k : Nat) : Option Magnitude :=
  ofNat (Nat.pow 10 k)

/-- `x * 10 ^ e` in steps that each round once: powers of ten up to the 308th are single factors,
and below that `x` is first divided by the 308th. -/
def timesPowerOfTen (x : Magnitude) (e : Int) : Option Magnitude :=
  if x.isZero then some x
  else if e > 308 then none
  else if 0 ≤ e then do mul x (← powerOfTen e.toNat)
  else if -308 ≤ e then do div x (← powerOfTen e.natAbs)
  else do timesPowerOfTen (← div x (← powerOfTen 308)) (e + 308)
termination_by e.natAbs
decreasing_by omega

end Magnitude

end QueryValidator
