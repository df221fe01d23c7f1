/-
  Readers of JSON.

  A `Reader α` takes the bytes in front of it and gives a value and the bytes behind it, or a fault.
  What it gives carries the proof that bytes were used up, so a loop over readers ends because the
  bytes do, and no reader needs fuel.  Loops keep a bound `n` on the bytes they started with: their
  result is stated against the bound, which stays the same from round to round.
-/
import Switchboard.Json.Fault

namespace Switchboard.Json

/-! ## Results -/

/-- A value, and the bytes behind it, fewer than `n`. -/
structure Read (α : Type) (n : Nat) where
  value : α
  rest : Bytes
  shorter : rest.length < n

namespace Read

variable {α β : Type} {m n : Nat}

/-- The same result with its value changed. -/
def map (f : α → β) (r : Read α n) : Read β n := ⟨f r.value, r.rest, r.shorter⟩

/-- The same result against a larger bound. -/
def within (r : Read α m) (h : m ≤ n) : Read α n :=
  ⟨r.value, r.rest, Nat.lt_of_lt_of_le r.shorter h⟩

end Read

/-! ## Bounds -/

theorem length_le (s : Bytes) : s.length ≤ s.length := Nat.le_refl _

theorem length_le_cons (b : UInt8) (s : Bytes) : s.length ≤ (b :: s).length := Nat.le_succ _

theorem length_le_of_lt {r s : Bytes} (h : r.length < s.length) : r.length ≤ s.length :=
  Nat.le_of_lt h

/-- What is left is no longer than what was given. -/
theorem Read.rest_le {α : Type} {s : Bytes} (r : Read α s.length) : r.rest.length ≤ s.length :=
  Nat.le_of_lt r.shorter

/-! ## Readers -/

/-- Reads a value from the front of the bytes it is given. -/
abbrev Reader (α : Type) := (s : Bytes) → Except Fault (Read α s.length)

/-- The result of reading within a bound. -/
abbrev Reading (α : Type) (n : Nat) := Except Fault (Read α n)

/-- Reading ends with a fault. -/
def refuse {α : Type} (f : Fault) : Except Fault α := .error f

/-! ## Bytes with a meaning -/

/-- The double quote. -/
def quote : UInt8 := 0x22
/-- The backslash. -/
def backslash : UInt8 := 0x5C
/-- The comma. -/
def comma : UInt8 := 0x2C
/-- The colon. -/
def colon : UInt8 := 0x3A
/-- The minus. -/
def minus : UInt8 := 0x2D
/-- The bracket in front of a list. -/
def openList : UInt8 := 0x5B
/-- The bracket behind a list. -/
def closeList : UInt8 := 0x5D
/-- The brace in front of an object. -/
def openObject : UInt8 := 0x7B
/-- The brace behind an object. -/
def closeObject : UInt8 := 0x7D

/-- The byte of a decimal digit. -/
def isDigit (b : UInt8) : Bool := 0x30 ≤ b && b ≤ 0x39

/-- The value of a decimal digit. -/
def digit (b : UInt8) : Nat := b.toNat - 0x30

/-- Space, line feed, tab and carriage return. -/
def isBlank (b : UInt8) : Bool := b == 0x20 || b == 0x0A || b == 0x09 || b == 0x0D

/-! ## Blanks and first bytes -/

/-- What follows the blanks in front. -/
def skipBlanks (s : Bytes) : Bytes := s.dropWhile isBlank

theorem length_dropWhile_le {α : Type} (p : α → Bool) (s : List α) :
    (s.dropWhile p).length ≤ s.length := by
  induction s with
  | nil => simp
  | cons a s ih =>
    simp only [List.dropWhile_cons]
    split
    · exact Nat.le_trans ih (Nat.le_succ _)
    · exact Nat.le_refl _

theorem length_skipBlanks_le (s : Bytes) : (skipBlanks s).length ≤ s.length :=
  length_dropWhile_le _ _

theorem length_lt_of_skipBlanks {s r : Bytes} {b : UInt8} (h : skipBlanks s = b :: r) :
    r.length < s.length := by
  have := length_skipBlanks_le s
  rw [h] at this
  exact this

/-- Goes on with the first byte that is no blank and the bytes behind it; `ended` is the cause when
    there is none. -/
@[inline] def withFirst {α : Type} {n : Nat} (ended : Cause) (s : Bytes)
    (go : (b : UInt8) → (r : Bytes) → r.length < s.length → Reading α n) : Reading α n :=
  match h : skipBlanks s with
  | [] => refuse (.here ended [])
  | b :: r => go b r (length_lt_of_skipBlanks h)

theorem withFirst_nil {α : Type} {n : Nat} {ended : Cause} {s : Bytes}
    {go : (b : UInt8) → (r : Bytes) → r.length < s.length → Reading α n} (h : skipBlanks s = []) :
    withFirst ended s go = .error ⟨ended, 0⟩ := by
  unfold withFirst
  split
  · rfl
  · simp_all

theorem withFirst_cons {α : Type} {n : Nat} {ended : Cause} {s r : Bytes} {b : UInt8}
    {go : (b : UInt8) → (r : Bytes) → r.length < s.length → Reading α n}
    (h : skipBlanks s = b :: r) :
    withFirst ended s go = go b r (length_lt_of_skipBlanks h) := by
  unfold withFirst
  split
  · simp_all
  · rename_i b' r' h'
    obtain ⟨rfl, rfl⟩ : b' = b ∧ r' = r := by simpa [h'] using h
    rfl

end Switchboard.Json
