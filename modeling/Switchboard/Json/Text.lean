/-
  Strings of a JSON document.

    * `textBody`  reads a string behind its opening quote and gives its text;
    * `skipText`  passes over a string behind its opening quote;
    * `writeText s`  writes a text as a string.

  A string that is passed over is checked less: its escapes must be spelled correctly, but it may
  hold lone surrogates and broken UTF-8.  In a string that is read, broken UTF-8 is reported only
  when the string ends, and at the first broken byte; any other fault of the string comes first.
-/
import Switchboard.Json.Reader

namespace Switchboard.Json

/-! ## Escapes -/

/-- The value of a hexadecimal digit in either case. -/
def hexDigit? (b : UInt8) : Option Nat :=
  if 0x30 ≤ b ∧ b ≤ 0x39 then some (b.toNat - 0x30)
  else if 0x41 ≤ b ∧ b ≤ 0x46 then some (b.toNat - 0x41 + 10)
  else if 0x61 ≤ b ∧ b ≤ 0x66 then some (b.toNat - 0x61 + 10)
  else none

/-- The value of four hexadecimal digits. -/
def fourHex? (a b c d : UInt8) : Option Nat := do
  let w ← hexDigit? a
  let x ← hexDigit? b
  let y ← hexDigit? c
  let z ← hexDigit? d
  return ((w * 16 + x) * 16 + y) * 16 + z

/-- Reads the four digits of a numbered escape.  The four bytes are used up whatever they are. -/
def numberedEscape : Reader Nat
  | a :: b :: c :: d :: s =>
    match fourHex? a b c d with
    | some n => .ok ⟨n, s, by simp only [List.length_cons]; omega⟩
    | none => refuse (.here .invalidEscape s)
  | _ => refuse (.here .unfinishedString [])

/-- The first half of a surrogate pair. -/
def isHighSurrogate (n : Nat) : Bool := 0xD800 ≤ n && n ≤ 0xDBFF

/-- The second half of a surrogate pair. -/
def isLowSurrogate (n : Nat) : Bool := 0xDC00 ≤ n && n ≤ 0xDFFF

/-- The character that a high and a low surrogate stand for together. -/
def joinSurrogates (high low : Nat) : Char :=
  Char.ofNat ((high - 0xD800) * 0x400 + (low - 0xDC00) + 0x10000)

/-- Reads the low half of a surrogate pair, a numbered escape of its own. -/
def lowHalf (high : Nat) : Reader Char
  | [] => refuse (.here .unfinishedString [])
  | [b] => refuse (.here (if b = backslash then .unfinishedString else .unfinishedSurrogatePair) [])
  | b :: c :: s => do
    if b ≠ backslash then refuse (.here .unfinishedSurrogatePair (c :: s))
    else if c ≠ 0x75 then refuse (.here .unfinishedSurrogatePair s)
    else
      let low ← numberedEscape s
      if isLowSurrogate low.value then
        return ⟨joinSurrogates high low.value, low.rest, by
          have := low.shorter; simp only [List.length_cons]; omega⟩
      else refuse (.here .loneSurrogate low.rest)

/-- Reads a numbered escape behind `\u`: a character, or the first half of a surrogate pair. -/
def numberedChar : Reader Char := fun s => do
  let n ← numberedEscape s
  if isLowSurrogate n.value then refuse (.here .loneSurrogate n.rest)
  else if isHighSurrogate n.value then
    let c ← lowHalf n.value n.rest
    return c.within n.rest_le
  else return ⟨Char.ofNat n.value, n.rest, n.shorter⟩

/-- The character of a two-character escape. -/
def shortEscape? (b : UInt8) : Option Char :=
  if b = quote then some '"'
  else if b = backslash then some '\\'
  else if b = 0x2F then some '/'
  else if b = 0x62 then some '\x08'
  else if b = 0x66 then some '\x0c'
  else if b = 0x6E then some '\n'
  else if b = 0x72 then some '\r'
  else if b = 0x74 then some '\t'
  else none

/-- Reads an escape behind its backslash. -/
def escape : Reader Char
  | [] => refuse (.here .unfinishedString [])
  | b :: s =>
    match shortEscape? b with
    | some c => .ok ⟨c, s, Nat.lt_succ_self _⟩
    | none =>
      if b = 0x75 then (numberedChar s).map (·.within (length_le_cons b s))
      else refuse (.here .invalidEscape s)

/-- Passes over an escape behind its backslash. -/
def skipEscape : Reader Unit
  | [] => refuse (.here .unfinishedString [])
  | b :: s =>
    match shortEscape? b with
    | some _ => .ok ⟨(), s, Nat.lt_succ_self _⟩
    | none =>
      if b = 0x75 then (numberedEscape s).map fun r => ⟨(), r.rest, Nat.lt_succ_of_lt r.shorter⟩
      else refuse (.here .invalidEscape s)

/-! ## Strings -/

/-- Reads the rest of a string whose characters so far are `chars`, in reverse.  `broken` is the
    place of its first broken byte. -/
def textOnto {n : Nat} (broken : Option Nat) (chars : List Char) :
    (s : Bytes) → s.length ≤ n → Reading String n
  | [], _ => refuse (.here .unfinishedString [])
  | b :: s, h =>
    if b = quote then
      match broken with
      | none => .ok ⟨String.ofList chars.reverse, s, h⟩
      | some unread => refuse ⟨.brokenText, unread⟩
    else if b = backslash then do
      let c ← escape s
      textOnto broken (c.value :: chars) c.rest (by
        have := c.shorter; simp only [List.length_cons] at h; omega)
    else if b < 0x20 then refuse (.here .controlCharacter s)
    else
      have shorter := Utf8.length_next_le b s
      match (Utf8.next b s).1 with
      | some c => textOnto broken (c :: chars) (Utf8.next b s).2 (by
          simp only [List.length_cons] at h; omega)
      | none => textOnto (broken.or (some s.length)) chars (Utf8.next b s).2 (by
          simp only [List.length_cons] at h; omega)
  termination_by s => s.length
  decreasing_by
  · have := c.shorter; simp only [List.length_cons]; omega
  · simp only [List.length_cons]; omega
  · simp only [List.length_cons]; omega

/-- Reads a string behind its opening quote. -/
def textBody : Reader String := fun s => textOnto none [] s (length_le s)

/-- Passes over the rest of a string. -/
def skipTextWithin {n : Nat} : (s : Bytes) → s.length ≤ n → Reading Unit n
  | [], _ => refuse (.here .unfinishedString [])
  | b :: s, h =>
    if b = quote then .ok ⟨(), s, h⟩
    else if b = backslash then do
      let e ← skipEscape s
      skipTextWithin e.rest (by have := e.shorter; simp only [List.length_cons] at h; omega)
    else if b < 0x20 then refuse (.here .controlCharacter (b :: s))
    else skipTextWithin s (by simp only [List.length_cons] at h; omega)
  termination_by s => s.length
  decreasing_by
  · have := e.shorter; simp only [List.length_cons]; omega
  · simp only [List.length_cons]; omega

/-- Passes over a string behind its opening quote. -/
def skipText : Reader Unit := fun s => skipTextWithin s (length_le s)

/-! ## Writing -/

/-- One character of a text as a string holds it: the quote, the backslash and the control
    characters are escaped, the shortest way there is, and all others stand for themselves. -/
def escapeChar (c : Char) : List Char :=
  if c = '"' then ['\\', '"']
  else if c = '\\' then ['\\', '\\']
  else if c = '\x08' then ['\\', 'b']
  else if c = '\x0c' then ['\\', 'f']
  else if c = '\n' then ['\\', 'n']
  else if c = '\r' then ['\\', 'r']
  else if c = '\t' then ['\\', 't']
  else if c < ' ' then
    ['\\', 'u', '0', '0', Nat.digitChar (c.toNat / 16), Nat.digitChar (c.toNat % 16)]
  else [c]

/-- A text as a string of a JSON document. -/
def writeText (s : String) : String :=
  String.ofList ('"' :: s.toList.flatMap escapeChar ++ ['"'])

end Switchboard.Json
