import Annotations.Text.Printable

/-!
# Quoted texts

The source form of a character or a string: between quotes, with short escapes for the usual
controls, and the code point in braces for every character that would not show as itself.
-/

namespace Annotations.Text

/-- The digits of `n` in base sixteen, in lower case and without leading zeros. -/
def hex (n : Nat) : String :=
  String.ofList (Nat.toDigits 16 n)

/-- A code point written by its number. -/
def byNumber (c : Char) : String :=
  "\\u\x7b" ++ hex c.toNat ++ "\x7d"

/-- One character between quotes of the kind `quote`; the other kind of quote needs no escape. -/
def escape (quote c : Char) : String :=
  if c = '\x00' then "\\0"
  else if c = '\t' then "\\t"
  else if c = '\r' then "\\r"
  else if c = '\n' then "\\n"
  else if c = '\\' || c = quote then String.ofList ['\\', c]
  else if c.toNat < 0x7f && 0x20 ≤ c.toNat then c.toString
  else if isMark c || isBlind c then byNumber c
  else c.toString

/-- A string in double quotes. -/
def quoted (s : String) : String :=
  "\"" ++ String.join (s.toList.map (escape '"')) ++ "\""

/-- A character in single quotes. -/
def quotedChar (c : Char) : String :=
  "'" ++ escape '\'' c ++ "'"

end Annotations.Text
