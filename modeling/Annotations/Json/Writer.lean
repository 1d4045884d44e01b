import Annotations.Json.Basic
import Annotations.Text.Quoted

/-!
# Writing JSON

The text of a tree without blanks. In strings, quotation marks and backslashes are escaped, and so
are the characters below the space: the usual five by a letter, the others by their number. All
other characters stand for themselves.
-/

namespace Annotations

namespace Token

/-- The code of a control character in four digits. -/
def controlCode (c : Char) : String :=
  "\\u00" ++ (if c.toNat < 16 then "0" else "") ++ Text.hex c.toNat

/-- A character within a string. -/
def escape (c : Char) : String :=
  if c = '"' then "\\\""
  else if c = '\\' then "\\\\"
  else if c = '\x08' then "\\b"
  else if c = '\x0c' then "\\f"
  else if c = '\n' then "\\n"
  else if c = '\r' then "\\r"
  else if c = '\t' then "\\t"
  else if c.toNat < 0x20 then controlCode c
  else c.toString

/-- A string between quotation marks. -/
def quoted (s : String) : String :=
  "\"" ++ String.join (s.toList.map escape) ++ "\""

/-- The text of a token. -/
def text : Token → String
  | openBrace => "\x7b"
  | closeBrace => "\x7d"
  | openBracket => "["
  | closeBracket => "]"
  | comma => ","
  | colon => ":"
  | null => "null"
  | bool b => if b then "true" else "false"
  | number t => t
  | string s => quoted s
  | unreadable => "\"\\ud800\""

end Token

/-- The text of a tree. -/
def Json.write (j : Json) : String :=
  String.join (j.tokens.map Token.text)

end Annotations
