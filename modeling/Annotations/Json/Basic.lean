/-!
# JSON texts and their tokens

A JSON text stands for a tree of values (`Json`). Numbers are kept as they are written, and the
members of an object in their order, repeated names included. A text is a sequence of tokens;
`Json.tokens` is the one without blanks.
-/

namespace Annotations

/-- What a JSON text stands for. -/
inductive Json where
  | null
  | bool (b : Bool)
  /-- A number, as it is written. -/
  | number (text : String)
  | string (s : String)
  | array (elements : List Json)
  | object (members : List (String × Json))
  /-- A string in which an escape stands for no character, or an object with such a name. It is
  well formed as a text, and can be passed over, but stands for nothing. -/
  | unreadable
deriving Inhabited

/-- The parts of a JSON text between which blanks may stand. -/
inductive Token where
  | openBrace
  | closeBrace
  | openBracket
  | closeBracket
  | comma
  | colon
  | null
  | bool (b : Bool)
  | number (text : String)
  | string (s : String)
  /-- A string in which an escape stands for no character. -/
  | unreadable
deriving DecidableEq, Repr

namespace Json

mutual

/-- The tokens of a tree. -/
def tokens : Json → List Token
  | null => [.null]
  | bool b => [.bool b]
  | number t => [.number t]
  | string s => [.string s]
  | array vs => .openBracket :: elementTokens vs ++ [.closeBracket]
  | object ms => .openBrace :: memberTokens ms ++ [.closeBrace]
  | unreadable => [.unreadable]

/-- The tokens of the elements of an array. -/
def elementTokens : List Json → List Token
  | [] => []
  | [v] => v.tokens
  | v :: w :: vs => v.tokens ++ .comma :: elementTokens (w :: vs)

/-- The tokens of the members of an object. -/
def memberTokens : List (String × Json) → List Token
  | [] => []
  | [(k, v)] => .string k :: .colon :: v.tokens
  | (k, v) :: m :: ms => .string k :: .colon :: v.tokens ++ .comma :: memberTokens (m :: ms)

end

/-- A whole number. -/
def int (n : Int) : Json :=
  number (toString n)

end Json

end Annotations
