/-
  Why a JSON document is refused, and where.

  A `Fault` is a cause and the number of bytes that were still unread where it is reported, so that
  a reader needs no notion of position: line and column are computed from the whole document
  afterwards (`Fault.message`).  Two places occur.  A fault is `here` when the bytes read so far are
  to blame, and at the next byte (`peek`) when that byte is: then the position lies behind it, or at
  the end.

  The causes fall into three classes: the document ends too early, its text is not JSON, or it is
  JSON of the wrong shape.
-/
import Switchboard.Text.Utf8
import Switchboard.Text.Quoted
import Switchboard.Number.Shortest

namespace Switchboard.Json

open Switchboard.Number

/-! ## What was found -/

/-- A number as a document gives it: an integer within the 64-bit ranges, or a binary64 number. -/
inductive Number where
  | integer (value : Int)
  | float (negative : Bool) (magnitude : Magnitude)
  deriving Repr, DecidableEq

/-- Numbers in messages: positional from `0.00001` up to sixteen digits before the point. -/
def numberLayout : Layout := ⟨-5, 15⟩

/-- The text of a number that is not an integer. -/
def floatText (negative : Bool) (x : Magnitude) : String :=
  (if negative then "-" else "") ++ numberLayout.text (shortest x)

/-- A value of the wrong type.  Lists and objects are not looked into. -/
inductive Found where
  | null
  | boolean (value : Bool)
  | number (value : Number)
  | text (value : String)
  | list
  | object
  deriving Repr, DecidableEq

/-- What was found, as a message says it. -/
def Found.describe : Found → String
  | .null => "null"
  | .boolean b => "boolean `" ++ toString b ++ "`"
  | .number (.integer z) => "integer `" ++ toString z ++ "`"
  | .number (.float negative x) => "floating point `" ++ floatText negative x ++ "`"
  | .text s => "string " ++ Text.quoted s
  | .list => "sequence"
  | .object => "map"

/-! ## Causes -/

/-- What is wrong with a document, with what its message needs. -/
inductive Cause where
  | unfinishedValue
  | unfinishedString
  | unfinishedList
  | unfinishedObject
  | expectedValue
  | expectedWord
  | expectedColon
  | expectedListEnd
  | expectedObjectEnd
  | trailingComma
  | trailingCharacters
  | keyNotString
  | controlCharacter
  | invalidEscape
  | unfinishedSurrogatePair
  | loneSurrogate
  | brokenText
  | invalidNumber
  | numberOutOfRange
  | tooDeep
  | wrongType (found : Found) (expected : String)
  | integerOutOfRange (value : Int) (expected : String)
  | wrongLength (count : Nat) (expected : String)
  | missingField (name : String)
  | duplicateField (name : String)
  | unknownVariant (name : String) (known : List String)
  deriving Repr, DecidableEq

/-- The three classes of causes. -/
inductive FaultClass where
  | ended
  | malformed
  | mistyped
  deriving Repr, DecidableEq

/-- The class of a cause. -/
def Cause.faultClass : Cause → FaultClass
  | .unfinishedValue | .unfinishedString | .unfinishedList | .unfinishedObject => .ended
  | .wrongType .. | .integerOutOfRange .. | .wrongLength .. | .missingField _ | .duplicateField _
  | .unknownVariant .. => .mistyped
  | _ => .malformed

/-- Alternatives as a message lists them. -/
def oneOf : List String → String
  | [a, b] => "`" ++ a ++ "` or `" ++ b ++ "`"
  | names => ", ".intercalate (names.map fun n => "`" ++ n ++ "`")

/-- The message of a cause, without its place. -/
def Cause.message : Cause → String
  | .unfinishedValue => "EOF while parsing a value"
  | .unfinishedString => "EOF while parsing a string"
  | .unfinishedList => "EOF while parsing a list"
  | .unfinishedObject => "EOF while parsing an object"
  | .expectedValue => "expected value"
  | .expectedWord => "expected ident"
  | .expectedColon => "expected `:`"
  | .expectedListEnd => "expected `,` or `]`"
  | .expectedObjectEnd => "expected `,` or `\x7d`"
  | .trailingComma => "trailing comma"
  | .trailingCharacters => "trailing characters"
  | .keyNotString => "key must be a string"
  | .controlCharacter => "control character (\\u0000-\\u001F) found while parsing a string"
  | .invalidEscape => "invalid escape"
  | .unfinishedSurrogatePair => "unexpected end of hex escape"
  | .loneSurrogate => "lone leading surrogate in hex escape"
  | .brokenText => "invalid unicode code point"
  | .invalidNumber => "invalid number"
  | .numberOutOfRange => "number out of range"
  | .tooDeep => "recursion limit exceeded"
  | .wrongType found expected => "invalid type: " ++ found.describe ++ ", expected " ++ expected
  | .integerOutOfRange z expected =>
    "invalid value: integer `" ++ toString z ++ "`, expected " ++ expected
  | .wrongLength n expected => "invalid length " ++ toString n ++ ", expected " ++ expected
  | .missingField name => "missing field `" ++ name ++ "`"
  | .duplicateField name => "duplicate field `" ++ name ++ "`"
  | .unknownVariant name known => "unknown variant `" ++ name ++ "`, expected " ++ oneOf known

/-! ## Places -/

/-- A cause and the number of unread bytes at its place. -/
structure Fault where
  cause : Cause
  unread : Nat
  deriving Repr, DecidableEq

/-- The fault whose place is in front of `rest`. -/
def Fault.here (cause : Cause) (rest : Bytes) : Fault := ⟨cause, rest.length⟩

/-- The fault whose place is behind the first byte of `rest`, or at the end. -/
def Fault.peek (cause : Cause) (rest : Bytes) : Fault := ⟨cause, rest.length - 1⟩

/-- The line, counted from 1, in which bytes end. -/
def line (read : Bytes) : Nat := read.count 0x0A + 1

/-- The number of bytes in the line in which bytes end. -/
def column (read : Bytes) : Nat := (read.reverse.takeWhile (· != 0x0A)).length

/-- The message about a document: the cause, and the line and column of its place. -/
def Fault.message (f : Fault) (document : Bytes) : String :=
  let read := document.take (document.length - f.unread)
  f.cause.message ++ " at line " ++ toString (line read) ++ " column " ++ toString (column read)

end Switchboard.Json
