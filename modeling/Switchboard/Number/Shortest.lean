/-
  The shortest decimal of a binary64 magnitude, and its text.

    * `shortest x`   the decimal with the fewest digits that rounds to `x`, and of those the
                     nearest;
    * `Layout.text`  its text: positional for a range of exponents, scientific outside it.

  The reals that round to `x = m · 2 ^ q` form an interval, whose ends belong to it iff `m` is even.
  On the grid of decimals with `n` digits, if any point lies in that interval then one of the two
  points next to `x` does, so for `n = 1, 2, …, 17` only those two are tested; 17 digits always
  suffice.
-/
import Switchboard.Number.Binary64

namespace Switchboard.Number

/-- The decimal `d.ddd · 10 ^ exponent` whose digits are those of `digits`. -/
structure Decimal where
  digits : Nat
  exponent : Int
  deriving Repr, DecidableEq

/-- The number of decimal digits of `n`; zero has one. -/
def digitCount (n : Nat) : Nat := (Nat.toDigits 10 n).length

/-- The exponent `e` with `10 ^ e ≤ num / den < 10 ^ (e + 1)`, for a positive quotient. -/
def decimalExponent (num den : Nat) : Int :=
  if den ≤ num then digitCount (num / den) - 1
  else -(digitCount ((den + num - 1) / num - 1) : Int)

/-- The interval of reals that round to a positive magnitude, with the magnitude itself, all over
    one denominator. -/
structure Interval where
  low : Nat
  value : Nat
  high : Nat
  den : Nat
  closed : Bool

/-- Half a unit up, and down half a unit of the spacing there, which is halved below a power of
    two. -/
def Magnitude.interval (x : Magnitude) : Interval :=
  let m := x.mantissa
  let down := if m = Nat.pow 2 52 ∧ -1074 < x.exponent then 1 else 2
  let e := x.exponent - 2
  let unit := if 0 ≤ e then Nat.pow 2 e.toNat else 1
  let den := if 0 ≤ e then 1 else Nat.pow 2 (-e).toNat
  ⟨(4 * m - down) * unit, 4 * m * unit, (4 * m + 2) * unit, den, m % 2 == 0⟩

/-- Whether `c · 10 ^ k` lies in the interval. -/
def Interval.has (i : Interval) (c : Nat) (k : Int) : Bool :=
  let point := c * Nat.pow 10 k.toNat * i.den
  let by10 := Nat.pow 10 (-k).toNat
  if i.closed then i.low * by10 ≤ point && point ≤ i.high * by10
  else i.low * by10 < point && point < i.high * by10

/-- The nearer of the points next to the value on the grid of multiples of `10 ^ k` that lie in the
    interval; at a tie the even one. -/
def Interval.onGrid? (i : Interval) (k : Int) : Option Nat :=
  let num := i.value * Nat.pow 10 (-k).toNat
  let den := i.den * Nat.pow 10 k.toNat
  let below := num / den
  let rest := num % den
  let nearBelow := 2 * rest < den || (2 * rest == den && below % 2 == 0)
  match i.has below k, i.has (below + 1) k with
  | true, true => some (if nearBelow then below else below + 1)
  | true, false => some below
  | false, true => some (below + 1)
  | false, false => none

/-- The decimal with the fewest digits that rounds to `x`, the nearest of them.  Zero is `0`.  The
    grid point above `99…9` is a power of ten, which belongs to the next exponent. -/
def shortest (x : Magnitude) : Decimal :=
  if x.isZero then ⟨0, 0⟩
  else
    let i := x.interval
    let e := decimalExponent i.value i.den
    ((List.range 17).findSome? fun (n : Nat) =>
      (i.onGrid? (e - n)).map fun c =>
        if digitCount c = n + 1 then ⟨c, e⟩ else ⟨c / 10, e + 1⟩).getD ⟨0, 0⟩

/-- How a decimal is laid out: from `lowest` to `highest` exponent in positional notation with at
    least one digit behind the point, outside in scientific notation. -/
structure Layout where
  lowest : Int
  highest : Int

/-- `n` zeros. -/
def zeros (n : Nat) : List Char := List.replicate n '0'

/-- The decimal as a layout shows it. -/
def Layout.text (l : Layout) (x : Decimal) : String :=
  let digits := Nat.toDigits 10 x.digits
  if x.exponent < l.lowest ∨ l.highest < x.exponent then
    let sign := if x.exponent < 0 then "-" else "+"
    let point := if digits.length = 1 then [] else '.' :: digits.drop 1
    String.ofList (digits.take 1 ++ point) ++ "e" ++ sign ++ toString x.exponent.natAbs
  else if x.exponent < 0 then
    "0." ++ String.ofList (zeros (x.exponent.natAbs - 1) ++ digits)
  else
    let whole := x.exponent.toNat + 1
    let behind := digits.drop whole
    String.ofList (digits.take whole ++ zeros (whole - digits.length)) ++ "." ++
      (if behind = [] then "0" else String.ofList behind)

end Switchboard.Number
