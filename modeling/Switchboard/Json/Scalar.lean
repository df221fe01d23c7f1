/-
  Words, scalars, and values of the wrong type.

  A reader that expects one type and meets the start of another first reads the scalar it has met,
  so that a fault in its spelling comes first, and then refuses it (`mismatch`).  Lists and objects
  are refused at once, in front of their bracket.
-/
import Switchboard.Json.Text
import Switchboard.Json.Numeral

namespace Switchboard.Json

open Switchboard.Number

/-! ## Words -/

/-- Reads the bytes of `word`; the first that differs is used up. -/
def word {n : Nat} : (word : Bytes) → (s : Bytes) → s.length < n → Reading Unit n
  | [], s, h => .ok ⟨(), s, h⟩
  | _ :: _, [], _ => refuse (.here .unfinishedValue [])
  | w :: ws, b :: s, h =>
    if b = w then word ws s (by simp only [List.length_cons] at h; omega)
    else refuse (.here .expectedWord s)

/-- The words behind their first letter. -/
def nullTail : Bytes := [0x75, 0x6C, 0x6C]
/-- The same of `true`. -/
def trueTail : Bytes := [0x72, 0x75, 0x65]
/-- The same of `false`. -/
def falseTail : Bytes := [0x61, 0x6C, 0x73, 0x65]

/-! ## Scalars -/

/-- A value that is no list and no object. -/
inductive Scalar where
  | null
  | boolean (value : Bool)
  | number (value : Number)
  | text (value : String)
  deriving Repr, DecidableEq

/-- The scalar as a value of the wrong type. -/
def Scalar.found : Scalar → Found
  | .null => .null
  | .boolean b => .boolean b
  | .number x => .number x
  | .text s => .text s

/-- The value of a word behind its first letter. -/
def Scalar.ofWord {n : Nat} (x : Scalar) (w s : Bytes) (h : s.length < n) : Reading Scalar n :=
  (word w s h).map (·.map fun _ => x)

/-- Reads the scalar that begins with `b`, if one does. -/
def scalar? (b : UInt8) (s : Bytes) : Option (Reading Scalar (s.length + 1)) :=
  have h : s.length < s.length + 1 := Nat.lt_succ_self _
  if b = 0x6E then some (Scalar.ofWord .null nullTail s h)
  else if b = 0x74 then some (Scalar.ofWord (.boolean true) trueTail s h)
  else if b = 0x66 then some (Scalar.ofWord (.boolean false) falseTail s h)
  else if b = quote then
    some ((textBody s).map fun r => (r.map .text).within (Nat.le_succ _))
  else if b = minus ∨ isDigit b = true then some ((number (b :: s)).map (·.map .number))
  else none

/-- Passes over the scalar that begins with `b`, if one does. -/
def skipScalar? (b : UInt8) (s : Bytes) : Option (Reading Unit (s.length + 1)) :=
  have h : s.length < s.length + 1 := Nat.lt_succ_self _
  if b = 0x6E then some (word nullTail s h)
  else if b = 0x74 then some (word trueTail s h)
  else if b = 0x66 then some (word falseTail s h)
  else if b = quote then some ((skipText s).map (·.within (Nat.le_succ _)))
  else if b = minus ∨ isDigit b = true then some (skipNumber (b :: s))
  else none

/-! ## Values of the wrong type -/

/-- The fault of the value that begins with `b`, where `expected` was. -/
def mismatch (expected : String) (b : UInt8) (s : Bytes) : Fault :=
  match scalar? b s with
  | some (.ok r) => .here (.wrongType r.value.found expected) r.rest
  | some (.error f) => f
  | none =>
    if b = openList then .here (.wrongType .list expected) (b :: s)
    else if b = openObject then .here (.wrongType .object expected) (b :: s)
    else .peek .expectedValue (b :: s)

/-! ## Readers of one type -/

/-- Reads a string. -/
def text : Reader String := fun s =>
  withFirst .unfinishedValue s fun b r h =>
    if b = quote then (textBody r).map (·.within (length_le_of_lt h))
    else refuse (mismatch "a string" b r)

/-- Reads `null`. -/
def null : Reader Unit := fun s =>
  withFirst .unfinishedValue s fun b r h =>
    if b = 0x6E then word nullTail r h else refuse (mismatch "unit" b r)

/-- Reads an integer from `low` to `high`. -/
def integer (low high : Int) (expected : String) : Reader Int := fun s =>
  withFirst .unfinishedValue s fun b r h =>
    if b = minus ∨ isDigit b = true then do
      let x ← number (b :: r)
      match x.value with
      | .integer z =>
        if low ≤ z ∧ z ≤ high then
          return ⟨z, x.rest, Nat.lt_of_lt_of_le x.shorter h⟩
        else refuse (.here (.integerOutOfRange z expected) x.rest)
      | found => refuse (.here (.wrongType (.number found) expected) x.rest)
    else refuse (mismatch expected b r)

/-- Reads a signed 64-bit integer. -/
def int64 : Reader Int64 := fun s =>
  (integer (-(maxSigned64 : Int) - 1) maxSigned64 "i64" s).map (·.map Int64.ofInt)

/-- Reads an unsigned 8-bit integer. -/
def uint8 : Reader Nat := fun s => (integer 0 255 "u8" s).map (·.map Int.toNat)

end Switchboard.Json
