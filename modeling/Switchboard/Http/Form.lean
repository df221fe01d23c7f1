/-
  Form-encoded text: the names and values of a query string.

    * `Form.decode q`  the pairs of a query, in order;
    * `Form.encode s`  one name or value as a query holds it.

  Decoding never fails: a percent sign that no two hexadecimal digits follow stands for itself,
  bytes that are not UTF-8 become U+FFFD, a piece without `=` has an empty value, and empty pieces
  are passed over.
-/
import Switchboard.Json.Text
import Switchboard.Named

namespace Switchboard.Http.Form

/-! ## Decoding -/

/-- The byte that `%` and two bytes behind it stand for, if they are hexadecimal digits. -/
def escapedByte? (high low : UInt8) : Option UInt8 := do
  return ((← Json.hexDigit? high) * 16 + (← Json.hexDigit? low)).toUInt8

/-- Undoes the escapes of the bytes in front; those behind are done and in reverse. -/
def unescapeOnto (done : Bytes) : Bytes → Bytes
  | [] => done.reverse
  | 0x25 :: h :: l :: s =>
    match escapedByte? h l with
    | some b => unescapeOnto (b :: done) s
    | none => unescapeOnto (0x25 :: done) (h :: l :: s)
  | b :: s => unescapeOnto ((if b = 0x2B then 0x20 else b) :: done) s
  termination_by s => s.length

/-- Undoes the escapes of a name or value: `+` is a space, `%` and two hexadecimal digits a byte. -/
def unescape (s : Bytes) : Bytes := unescapeOnto [] s

/-- The text of one name or value. -/
def decodePart (s : Bytes) : String := Utf8.decodeLossy (unescape s)

/-- A piece between two ampersands as a name and a value. -/
def decodePiece (piece : Bytes) : String × String :=
  (decodePart (piece.takeWhile (· != 0x3D)), decodePart ((piece.dropWhile (· != 0x3D)).drop 1))

/-- The pieces between ampersands. -/
def pieces (s : Bytes) : List Bytes := s.splitOn 0x26

/-- The names and values of a query, in order. -/
def decode (query : String) : Named String :=
  ((pieces (Utf8.encode query)).filter (· ≠ [])).map decodePiece

/-! ## Encoding -/

/-- The bytes that stand for themselves: letters, digits and `*-._`. -/
def isSafe (b : UInt8) : Bool :=
  Json.isDigit b || (0x41 ≤ b && b ≤ 0x5A) || (0x61 ≤ b && b ≤ 0x7A) ||
    b == 0x2A || b == 0x2D || b == 0x2E || b == 0x5F

/-- A byte as `%` and two upper-case hexadecimal digits. -/
def percent (b : UInt8) : List Char :=
  ['%', (Nat.digitChar (b.toNat / 16)).toUpper, (Nat.digitChar (b.toNat % 16)).toUpper]

/-- One byte of a name or value as a query holds it; a space is `+`. -/
def encodeByte (b : UInt8) : List Char :=
  if isSafe b then [Char.ofNat b.toNat] else if b = 0x20 then ['+'] else percent b

/-- A name or value as a query holds it. -/
def encode (s : String) : String := String.ofList ((Utf8.encode s).flatMap encodeByte)

/-- A name and its value as a piece of a query. -/
def encodePair (name value : String) : String := encode name ++ "=" ++ encode value

end Switchboard.Http.Form
