import Annotations.Json.Basic

/-!
# From characters to tokens

Splits a text into tokens and drops the blanks between them. The rules are strict: no number starts
with a needless zero or ends in a point, no string holds a bare control character, and no other
words than `null`, `true` and `false` are known.

An escape by number stands for a code unit of sixteen bits. Two units in a row can stand for one
character; a unit that is half of such a pair, without the other half, stands for none.
-/

namespace Annotations.Token

/-- The value of a hexadecimal digit. -/
def hexDigit? (c : Char) : Option Nat :=
  if c.isDigit then some (c.toNat - '0'.toNat)
  else if 'a' ≤ c && c ≤ 'f' then some (c.toNat - 'a'.toNat + 10)
  else if 'A' ≤ c && c ≤ 'F' then some (c.toNat - 'A'.toNat + 10)
  else none

/-- The code unit with these four digits. -/
def unit? (a b c d : Char) : Option Nat := do
  let a ← hexDigit? a
  let b ← hexDigit? b
  let c ← hexDigit? c
  let d ← hexDigit? d
  some (((a * 16 + b) * 16 + c) * 16 + d)

/-- The character that a letter behind a backslash stands for. -/
def escaped? (c : Char) : Option Char :=
  if c = '"' || c = '\\' || c = '/' then some c
  else if c = 'b' then some '\x08'
  else if c = 'f' then some '\x0c'
  else if c = 'n' then some '\n'
  else if c = 'r' then some '\r'
  else if c = 't' then some '\t'
  else none

/-- The rest of a string, as numbers of characters and code units, and what follows its closing
quotation mark. -/
def units? : List Char → Option (List Nat × List Char)
  | [] => none
  | '"' :: rest => some ([], rest)
  | '\\' :: 'u' :: a :: b :: c :: d :: rest => do
    let u ← unit? a b c d
    let (us, rest) ← units? rest
    some (u :: us, rest)
  | '\\' :: c :: rest => do
    let c ← escaped? c
    let (us, rest) ← units? rest
    some (c.toNat :: us, rest)
  | c :: rest =>
    if c.toNat < 0x20 || c = '\\' then none
    else do
      let (us, rest) ← units? rest
      some (c.toNat :: us, rest)

/-- Whether a unit is the first half of a pair. -/
def isFirstHalf (u : Nat) : Bool := 0xd800 ≤ u && u < 0xdc00

/-- Whether a unit is the second half of a pair. -/
def isSecondHalf (u : Nat) : Bool := 0xdc00 ≤ u && u < 0xe000

/-- The characters that the units stand for. -/
def characters? : List Nat → Option (List Char)
  | [] => some []
  | u :: v :: us =>
    if isFirstHalf u then
      if isSecondHalf v then
        (characters? us).map (Char.ofNat (0x10000 + (u - 0xd800) * 0x400 + (v - 0xdc00)) :: ·)
      else none
    else if isSecondHalf u then none
    else (characters? (v :: us)).map (Char.ofNat u :: ·)
  | [u] => if isFirstHalf u || isSecondHalf u then none else some [Char.ofNat u]

/-- The token of a string. -/
def ofUnits (us : List Nat) : Token :=
  match characters? us with
  | some cs => .string (String.ofList cs)
  | none => .unreadable

/-- One or more digits, and what follows them. -/
def digits? (s : List Char) : Option (List Char × List Char) :=
  match s.takeWhile Char.isDigit with
  | [] => none
  | ds => some (ds, s.dropWhile Char.isDigit)

/-- The whole part of a number: a zero, or digits that do not start with one. -/
def whole? (s : List Char) : Option (List Char × List Char) :=
  match s with
  | '0' :: rest => some (['0'], rest)
  | _ => digits? s

/-- The fraction of a number, if there is one. -/
def fraction? (s : List Char) : Option (List Char × List Char) :=
  match s with
  | '.' :: rest => (digits? rest).map fun (ds, rest) ↦ ('.' :: ds, rest)
  | _ => some ([], s)

/-- The exponent of a number behind its letter. -/
def power? (s : List Char) : Option (List Char × List Char) :=
  match s with
  | '+' :: rest => (digits? rest).map fun (ds, rest) ↦ ('+' :: ds, rest)
  | '-' :: rest => (digits? rest).map fun (ds, rest) ↦ ('-' :: ds, rest)
  | _ => digits? s

/-- The exponent of a number, if there is one. -/
def exponent? (s : List Char) : Option (List Char × List Char) :=
  match s with
  | 'e' :: rest => (power? rest).map fun (ds, rest) ↦ ('e' :: ds, rest)
  | 'E' :: rest => (power? rest).map fun (ds, rest) ↦ ('E' :: ds, rest)
  | _ => some ([], s)

/-- A number without its sign, and what follows it. -/
def unsigned? (s : List Char) : Option (List Char × List Char) := do
  let (whole, s) ← whole? s
  let (fraction, s) ← fraction? s
  let (exponent, s) ← exponent? s
  some (whole ++ fraction ++ exponent, s)

/-- A number, and what follows it. -/
def number? (s : List Char) : Option (List Char × List Char) :=
  match s with
  | '-' :: rest => (unsigned? rest).map fun (ds, rest) ↦ ('-' :: ds, rest)
  | _ => unsigned? s

/-- Whether a character may stand between tokens. -/
def isSpace (c : Char) : Bool :=
  c = ' ' || c = '\n' || c = '\t' || c = '\r'

/-- The first token of a text without blanks before it, and what follows the token. -/
def first? : List Char → Option (Token × List Char)
  | '\x7b' :: rest => some (.openBrace, rest)
  | '\x7d' :: rest => some (.closeBrace, rest)
  | '[' :: rest => some (.openBracket, rest)
  | ']' :: rest => some (.closeBracket, rest)
  | ',' :: rest => some (.comma, rest)
  | ':' :: rest => some (.colon, rest)
  | 'n' :: 'u' :: 'l' :: 'l' :: rest => some (.null, rest)
  | 't' :: 'r' :: 'u' :: 'e' :: rest => some (.bool true, rest)
  | 'f' :: 'a' :: 'l' :: 's' :: 'e' :: rest => some (.bool false, rest)
  | '"' :: rest => (units? rest).map fun (us, rest) ↦ (ofUnits us, rest)
  | s => (number? s).map fun (ds, rest) ↦ (.number (String.ofList ds), rest)

/-- The tokens of a text with at most `fuel` of them. -/
def split? : (fuel : Nat) → List Char → Option (List Token)
  | fuel, s =>
    match s.dropWhile isSpace, fuel with
    | [], _ => some []
    | _ :: _, 0 => none
    | c :: cs, fuel + 1 => do
      let (t, rest) ← first? (c :: cs)
      let ts ← split? fuel rest
      some (t :: ts)

/-- The tokens of a text. Each has a character of its own, so there are no more of them than
characters. -/
def all? (s : List Char) : Option (List Token) :=
  split? s.length s

end Annotations.Token
