/-
  Quoted texts, as they stand in messages: `quoted "a\n" = "\"a\\n\""`.

  A text stands between double quotes; the quote, the backslash, NUL, tab, line feed and carriage
  return have two-character escapes; any other character that does not show as itself is spelled by
  its number in lower-case hexadecimal, as in `\u{200b}`.
-/
import Switchboard.Text.Plain

namespace Switchboard.Text

/-- A number in lower-case hexadecimal, without leading zeros. -/
def hex (n : Nat) : String := String.ofList (Nat.toDigits 16 n)

/-- One character of a quoted text. -/
def quotedChar (c : Char) : String :=
  if c = '"' then "\\\""
  else if c = '\\' then "\\\\"
  else if c = '\x00' then "\\0"
  else if c = '\t' then "\\t"
  else if c = '\n' then "\\n"
  else if c = '\r' then "\\r"
  else if isPlain c then String.singleton c
  else "\\u\x7b" ++ hex c.toNat ++ "\x7d"

/-- A text between double quotes, in one line and readable. -/
def quoted (s : String) : String := "\"" ++ String.join (s.toList.map quotedChar) ++ "\""

end Switchboard.Text
