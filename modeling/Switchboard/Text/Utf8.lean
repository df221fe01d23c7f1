/-
  UTF-8: texts as bytes, and bytes as texts.

    * `Utf8.encode s`       the bytes of a text, one to four for each character;
    * `Utf8.next b s`       reads the character that begins with the byte `b`, or finds that none
                            does;
    * `Utf8.pieces s`       cuts bytes into characters and broken beginnings of characters;
    * `Utf8.decode? s`      the text whose bytes are `s`, when every piece is a character;
    * `Utf8.decodeLossy s`  the same with the replacement character for every broken piece.

  A character has exactly one form: the first byte fixes how many tail bytes follow and the range of
  the first of them, so overlong forms, surrogates and values above U+10FFFF are never read.  A
  broken piece is the longest beginning of a character that the bytes have, or a single byte that
  begins none.
-/

namespace Switchboard

/-- A byte string. -/
abbrev Bytes := List UInt8

namespace Utf8

/-! ## Texts as bytes -/

/-- The bytes of a text, character by character. -/
def encode (s : String) : Bytes := s.toList.flatMap String.utf8EncodeChar

/-! ## One character -/

/-- What the first byte of a character announces: the number of tail bytes, the range of the first
    of them, and its own share of the value. -/
structure Lead where
  tails : Nat
  low : UInt8
  high : UInt8
  bits : Nat
  deriving Repr

/-- The bytes that can begin a character.  After `E0`, `ED`, `F0` and `F4` the range of the first
    tail is narrower: it leaves out overlong forms, surrogates and values above U+10FFFF. -/
def lead? (b : UInt8) : Option Lead :=
  if b < 0x80 then some ⟨0, 0x80, 0xBF, b.toNat⟩
  else if b < 0xC2 then none
  else if b < 0xE0 then some ⟨1, 0x80, 0xBF, b.toNat - 0xC0⟩
  else if b < 0xF0 then
    some ⟨2, if b = 0xE0 then 0xA0 else 0x80, if b = 0xED then 0x9F else 0xBF, b.toNat - 0xE0⟩
  else if b < 0xF5 then
    some ⟨3, if b = 0xF0 then 0x90 else 0x80, if b = 0xF4 then 0x8F else 0xBF, b.toNat - 0xF0⟩
  else none

/-- Reads `count` tail bytes, the first within `low … high`, six bits each.  The second part is what
    follows the bytes that fit. -/
def readTails : (count : Nat) → (low high : UInt8) → (bits : Nat) → Bytes → Option Char × Bytes
  | 0, _, _, bits, s => (some (Char.ofNat bits), s)
  | _ + 1, _, _, _, [] => (none, [])
  | n + 1, low, high, bits, b :: s =>
    if low ≤ b ∧ b ≤ high then readTails n 0x80 0xBF (bits * 64 + b.toNat % 64) s
    else (none, b :: s)

/-- Reads the character that begins with `b`: the character and what follows it, or `none` and what
    follows the broken piece. -/
def next (b : UInt8) (s : Bytes) : Option Char × Bytes :=
  match lead? b with
  | some l => readTails l.tails l.low l.high l.bits s
  | none => (none, s)

theorem length_readTails_le (n : Nat) (low high : UInt8) (bits : Nat) (s : Bytes) :
    (readTails n low high bits s).2.length ≤ s.length := by
  induction n generalizing low high bits s with
  | zero => simp [readTails]
  | succ n ih =>
    cases s with
    | nil => simp [readTails]
    | cons b s =>
      simp only [readTails]
      split
      · exact Nat.le_trans (ih _ _ _ _) (Nat.le_succ _)
      · exact Nat.le_refl _

/-- Reading a character never gives back more than it was given. -/
theorem length_next_le (b : UInt8) (s : Bytes) : (next b s).2.length ≤ s.length := by
  unfold next
  split
  · exact length_readTails_le _ _ _ _ _
  · exact Nat.le_refl _

/-! ## Bytes as texts -/

/-- The pieces of `s` in front of those already found, which are kept in reverse. -/
def piecesOnto (found : List (Option Char)) : Bytes → List (Option Char)
  | [] => found.reverse
  | b :: s => piecesOnto ((next b s).1 :: found) (next b s).2
  termination_by s => s.length
  decreasing_by exact Nat.lt_succ_of_le (length_next_le b s)

/-- The characters of `s` in order, with `none` for every broken piece. -/
def pieces (s : Bytes) : List (Option Char) := piecesOnto [] s

/-- The text whose bytes are `s`, if there is one. -/
def decode? (s : Bytes) : Option String := ((pieces s).mapM id).map String.ofList

/-- The text of `s` with U+FFFD for every broken piece. -/
def decodeLossy (s : Bytes) : String := String.ofList ((pieces s).map (·.getD '\uFFFD'))

end Utf8

end Switchboard
