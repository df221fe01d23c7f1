/-
  The ids of requests that bring none: random UUIDs.
-/
import Switchboard.Text.Utf8

namespace Switchboard.Host

/-- The two digits of a byte. -/
def hexPair (b : UInt8) : List Char := [Nat.digitChar (b.toNat / 16), Nat.digitChar (b.toNat % 16)]

/-- Marks the version and the variant of a random UUID. -/
def markRandom (i : Nat) (b : UInt8) : UInt8 :=
  if i = 6 then (b &&& 0x0F) ||| 0x40
  else if i = 8 then (b &&& 0x3F) ||| 0x80
  else b

/-- The UUID of sixteen random bytes, in groups of 8, 4, 4, 4 and 12 digits. -/
def randomUuid (random : Bytes) : Bytes :=
  Utf8.encode (String.ofList ((random.mapIdx fun i b =>
    (if i = 4 ∨ i = 6 ∨ i = 8 ∨ i = 10 then ['-'] else []) ++ hexPair (markRandom i b)).flatten))

end Switchboard.Host
