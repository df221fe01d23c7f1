/-
  Codecs: how the values of a type are written and read.

  Writing may fail, with a message; reading may fail with a fault.  `encode` and `decode` work on
  whole documents.
-/
import Switchboard.Json.Value

namespace Switchboard.Json

/-- How values of a type are written, and how they are read. -/
structure Codec (α : Type) where
  write : α → Except String String
  read : Reader α

namespace Codec

variable {α : Type}

/-- The document of a value. -/
def encode (c : Codec α) (a : α) : Except String Bytes := (c.write a).map Utf8.encode

/-- The value of a document. -/
def decode (c : Codec α) (s : Bytes) : Except Fault α := document c.read s

/-- Strings. -/
def text : Codec String := ⟨fun s => .ok (writeText s), Json.text⟩

/-- Signed 64-bit integers. -/
def int64 : Codec Int64 := ⟨fun z => .ok (toString z.toInt), Json.int64⟩

/-- Lists, without blanks. -/
def list (c : Codec α) : Codec (List α) where
  write xs := do
    let items ← xs.mapM c.write
    return "[" ++ ",".intercalate items ++ "]"
  read := listValue c.read

/-- One of a few names, written as a string; read from a string, or from an object whose only member
    is that name with `null`. -/
def choice (known : List String) (name : α → String) (ofName : String → Option α) : Codec α where
  write a := .ok (writeText (name a))
  read s :=
    withFirst .unfinishedValue s fun b r h =>
      if b = quote then do
        let word ← textBody r
        match ofName word.value with
        | some a => return ⟨a, word.rest, Nat.lt_trans word.shorter h⟩
        | none => refuse (.here (.unknownVariant word.value known) word.rest)
      else if b = openObject then do
        let word ← key r
        match ofName word.value with
        | none => refuse (.here (.unknownVariant word.value known) word.rest)
        | some a =>
          let unit ← afterColon null word.rest
          withFirst .unfinishedObject unit.rest fun c t ht =>
            if c = closeObject then
              .ok ⟨a, t, by have := word.shorter; have := unit.shorter; omega⟩
            else refuse (.here .expectedValue (c :: t))
      else refuse (.peek .expectedValue (b :: r))
where
  /-- Reads the key of the only member. -/
  key : Reader String := fun s =>
    withFirst .unfinishedValue s fun b r h =>
      if b = quote then (textBody r).map (·.within (length_le_of_lt h))
      else refuse (mismatch "variant identifier" b r)

end Codec

end Switchboard.Json
