/-
  Numbers of a JSON document.

    * `numeral`        reads the spelling of a number: sign, digits, fraction, exponent;
    * `Numeral.value`  what it stands for.

  A spelling without fraction and exponent stands for an integer when that fits 64 bits, unsigned or
  signed; any other, and `-0`, for a binary64 number.  The digits are taken into a 64-bit
  significand for as long as they fit, the power of ten that is left is applied afterwards in steps
  of at most 308, and each step rounds.  A result beyond the largest binary64 number is refused.
-/
import Switchboard.Json.Reader
import Switchboard.Number.Integer

namespace Switchboard.Json

open Switchboard.Number

/-! ## Spelling -/

/-- The spelling of a number.  An exponent is negative or not, and has digits. -/
structure Numeral where
  negative : Bool
  whole : Bytes
  fraction : Bytes
  exponent : Option (Bool × Bytes)
  deriving Repr, DecidableEq

/-- Reads at least one digit.  At the end the cause is `ended`, and the fault at another byte is
    placed by `place`. -/
def digits (ended : Cause) (place : Cause → Bytes → Fault) : Reader Bytes
  | [] => refuse (.here ended [])
  | b :: s =>
    if isDigit b then
      .ok ⟨b :: s.takeWhile isDigit, s.dropWhile isDigit,
        Nat.lt_succ_of_le (length_dropWhile_le _ _)⟩
    else refuse (place .invalidNumber (b :: s))

/-- The place behind the byte that is no digit, which is used up. -/
def Fault.past (cause : Cause) (rest : Bytes) : Fault := .here cause (rest.drop 1)

/-- Reads the digits in front of the point: one zero, or digits that begin with another. -/
def wholeDigits (ended : Cause) : Reader Bytes := fun s => do
  let d ← digits ended .past s
  match d.value with
  | 0x30 :: t :: ts => refuse (.peek .invalidNumber (t :: ts ++ d.rest))
  | _ => return d

/-- Reads a fraction, if there is a point. -/
def fractionDigits {n : Nat} (ended : Cause) : (s : Bytes) → s.length < n → Reading Bytes n
  | [], h => .ok ⟨[], [], h⟩
  | b :: s, h =>
    if b = 0x2E then
      (digits ended .peek s).map (·.within (by simp only [List.length_cons] at h; omega))
    else .ok ⟨[], b :: s, h⟩

/-- Passes over the sign of an exponent: whether it is a minus, and what follows. -/
def exponentSign : Bytes → Bool × Bytes
  | [] => (false, [])
  | b :: s => if b = 0x2B then (false, s) else if b = minus then (true, s) else (false, b :: s)

theorem length_exponentSign_le (s : Bytes) : (exponentSign s).2.length ≤ s.length := by
  unfold exponentSign
  split
  · exact Nat.le_refl _
  · split
    · exact Nat.le_succ _
    · split
      · exact Nat.le_succ _
      · exact Nat.le_refl _

/-- Reads an exponent, if there is one. -/
def exponentDigits {n : Nat} (ended : Cause) :
    (s : Bytes) → s.length < n → Reading (Option (Bool × Bytes)) n
  | [], h => .ok ⟨none, [], h⟩
  | b :: s, h =>
    if b = 0x65 ∨ b = 0x45 then do
      let d ← digits ended .past (exponentSign s).2
      return ⟨some ((exponentSign s).1, d.value), d.rest, by
        have := d.shorter
        have := length_exponentSign_le s
        simp only [List.length_cons] at h; omega⟩
    else .ok ⟨none, b :: s, h⟩

/-- Reads the spelling of a number that begins with a digit. -/
def unsignedNumeral (ended : Cause) (negative : Bool) : Reader Numeral := fun s => do
  let whole ← wholeDigits ended s
  let fraction ← fractionDigits ended whole.rest whole.shorter
  let exponent ← exponentDigits ended fraction.rest fraction.shorter
  return ⟨⟨negative, whole.value, fraction.value, exponent.value⟩, exponent.rest, exponent.shorter⟩

/-- Reads the spelling of a number.  `ended` is the cause when it breaks off at the end. -/
def numeral (ended : Cause) : Reader Numeral
  | [] => refuse (.here ended [])
  | b :: s =>
    if b = minus then (unsignedNumeral ended true s).map (·.within (length_le_cons b s))
    else unsignedNumeral ended false (b :: s)

/-! ## Value -/

/-- The number that digits spell. -/
def digitsValue (ds : Bytes) : Nat := ds.foldl (fun n b => n * 10 + digit b) 0

/-- Takes digits into a number for as long as it stays within `limit`: the number, and the digits
    that are left. -/
def absorb (limit : Nat) : Nat → Bytes → Nat × Bytes
  | n, [] => (n, [])
  | n, b :: ds =>
    if n * 10 + digit b ≤ limit then absorb limit (n * 10 + digit b) ds else (n, b :: ds)

/-- The largest exponent that is read. -/
def largestExponent : Nat := Nat.pow 2 31 - 1

/-- Divides by `10 ^ k`, by `10 ^ 308` first for as long as `k` is above 308. -/
def divideByPower (x : Magnitude) (k : Nat) : Option Magnitude :=
  if k ≤ 308 then do x.div? (← Magnitude.powTen? k)
  else if x.isZero then some x
  else do divideByPower (← x.div? (← Magnitude.powTen? 308)) (k - 308)
  termination_by k

/-- `significand · 10 ^ exponent`, unless it is too large. -/
def scale? (significand : Nat) (exponent : Int) : Option Magnitude := do
  let x ← Magnitude.ofNat? significand
  if exponent < 0 then divideByPower x exponent.natAbs
  else if exponent ≤ 308 then x.mul? (← Magnitude.powTen? exponent.natAbs)
  else if x.isZero then some x
  else none

/-- The power of ten of a spelling: what its exponent gives, or `none` when that is too large to be
    read, with the digits behind the one that made it so. -/
def exponentValue : Option (Bool × Bytes) → Except (Bool × Bytes) Int
  | none => .ok 0
  | some (negative, ds) =>
    match absorb largestExponent 0 ds with
    | (n, []) => .ok (if negative then -n else n)
    | (_, _ :: left) => .error (negative, left)

/-- The binary64 number of a spelling with `rest` behind it. -/
def Numeral.float (x : Numeral) (rest : Bytes) : Except Fault Number :=
  let (whole, wholeLeft) := absorb maxUnsigned64 0 x.whole
  let (significand, fractionLeft) := absorb maxUnsigned64 whole x.fraction
  let shift : Int := wholeLeft.length - (x.fraction.length - fractionLeft.length)
  match exponentValue x.exponent with
  | .ok e =>
    match scale? significand (shift + e) with
    | some m => .ok (.float x.negative m)
    | none => refuse (.here .numberOutOfRange rest)
  | .error (negative, left) =>
    if significand ≠ 0 ∧ negative = false then refuse (.here .numberOutOfRange (left ++ rest))
    else .ok (.float x.negative .zero)

/-- The integer of a spelling without fraction and exponent, if it fits: from `0` to `2 ^ 64 - 1`,
    or negative from `-2 ^ 63`. -/
def Numeral.integer? (x : Numeral) : Option Int :=
  if x.fraction ≠ [] ∨ x.exponent.isSome then none
  else
    match absorb maxUnsigned64 0 x.whole with
    | (n, []) =>
      if x.negative = false then some n
      else if 0 < n ∧ n ≤ maxSigned64 + 1 then some (-n)
      else none
    | _ => none

/-- The number that a spelling with `rest` behind it stands for. -/
def Numeral.value (x : Numeral) (rest : Bytes) : Except Fault Number :=
  match x.integer? with
  | some z => .ok (.integer z)
  | none => x.float rest

/-- Reads a number. -/
def number : Reader Number := fun s => do
  let x ← numeral .unfinishedValue s
  let v ← x.value.value x.rest
  return ⟨v, x.rest, x.shorter⟩

/-- Passes over a number: it must be spelled correctly, but may be out of range. -/
def skipNumber : Reader Unit := fun s => (numeral .invalidNumber s).map (·.map fun _ => ())

end Switchboard.Json
