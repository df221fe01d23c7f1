/-
  Binary64 magnitudes, exactly.

  `Magnitude` is a nonnegative finite binary64 number `mantissa · 2 ^ exponent`.  Every operation
  takes the exact result as a quotient of natural numbers and rounds it once, to the nearest
  magnitude and at a tie to the even mantissa (`Magnitude.ofRatio?`).  A result above the largest
  magnitude is `none`.
-/

namespace Switchboard.Number

/-- `num / den` to the nearest integer, at a tie to the even one. -/
def roundQuotient (num den : Nat) : Nat :=
  let q := num / den
  let r := num % den
  if 2 * r < den then q
  else if den < 2 * r then q + 1
  else q + q % 2

/-- The number `mantissa · 2 ^ exponent`, with `mantissa < 2 ^ 53` and `-1074 ≤ exponent ≤ 971`. -/
structure Magnitude where
  mantissa : Nat
  exponent : Int
  deriving Repr, DecidableEq

namespace Magnitude

/-- Zero, at the least exponent. -/
def zero : Magnitude := ⟨0, -1074⟩

/-- The magnitude is zero, at whatever exponent. -/
def isZero (x : Magnitude) : Bool := x.mantissa == 0

/-- `num / (den · 2 ^ e)` as a quotient. -/
def scaled (num den : Nat) (e : Int) : Nat × Nat :=
  if 0 ≤ e then (num, den * Nat.pow 2 e.toNat) else (num * Nat.pow 2 (-e).toNat, den)

/-- The magnitude nearest to `num / den`, for a positive `den`.  The exponent is the least one, from
    `-1074` up, at which the mantissa stays below `2 ^ 53`. -/
def ofRatio? (num den : Nat) : Option Magnitude :=
  if num = 0 then some zero
  else
    let guess : Int := max (-1074) ((num.log2 : Int) - den.log2 - 53)
    let (n, d) := scaled num den guess
    let e := if n / d < Nat.pow 2 53 then guess else guess + 1
    let (n, d) := scaled num den e
    let m := roundQuotient n d
    let (m, e) := if m = Nat.pow 2 53 then (Nat.pow 2 52, e + 1) else (m, e)
    if e ≤ 971 then some ⟨m, e⟩ else none

/-- `x` as a quotient. -/
def toRatio (x : Magnitude) : Nat × Nat :=
  if 0 ≤ x.exponent then (x.mantissa * Nat.pow 2 x.exponent.toNat, 1)
  else (x.mantissa, Nat.pow 2 (-x.exponent).toNat)

/-- The magnitude nearest to a natural number. -/
def ofNat? (n : Nat) : Option Magnitude := ofRatio? n 1

/-- The product. -/
def mul? (x y : Magnitude) : Option Magnitude :=
  ofRatio? (x.toRatio.1 * y.toRatio.1) (x.toRatio.2 * y.toRatio.2)

/-- The quotient, for a `y` that is not zero. -/
def div? (x y : Magnitude) : Option Magnitude :=
  ofRatio? (x.toRatio.1 * y.toRatio.2) (x.toRatio.2 * y.toRatio.1)

/-- The magnitude nearest to `10 ^ k`. -/
def powTen? (k : Nat) : Option Magnitude := ofNat? (Nat.pow 10 k)

end Magnitude

end Switchboard.Number
