import Annotations.Json.Lexer

/-!
# Reading JSON

The tree of a text. A text is one value with nothing behind it; there is no limit to its nesting.
-/

namespace Annotations.Json

/-- The string that a token is as the name of a member; `none` within if it stands for nothing. -/
def name? : Token → Option (Option String)
  | .string s => some (some s)
  | .unreadable => some none
  | _ => none

/-- The object with the members, if all their names stand for something. -/
def ofMembers (ms : List (Option String × Json)) : Json :=
  match ms.mapM fun m ↦ m.1.map fun k ↦ (k, m.2) with
  | some ms => object ms
  | none => unreadable

mutual

/-- The value at the start of the tokens, and what follows it. -/
def value? : (fuel : Nat) → List Token → Option (Json × List Token)
  | _ + 1, .null :: ts => some (null, ts)
  | _ + 1, .bool b :: ts => some (bool b, ts)
  | _ + 1, .number t :: ts => some (number t, ts)
  | _ + 1, .string s :: ts => some (string s, ts)
  | _ + 1, .unreadable :: ts => some (unreadable, ts)
  | _ + 1, .openBracket :: .closeBracket :: ts => some (array [], ts)
  | fuel + 1, .openBracket :: ts => do
    let (vs, ts) ← elements? fuel ts
    some (array vs, ts)
  | _ + 1, .openBrace :: .closeBrace :: ts => some (object [], ts)
  | fuel + 1, .openBrace :: ts => do
    let (ms, ts) ← members? fuel ts
    some (ofMembers ms, ts)
  | _, _ => none

/-- The elements of an array up to its end, at least one. -/
def elements? : (fuel : Nat) → List Token → Option (List Json × List Token)
  | 0, _ => none
  | fuel + 1, ts => do
    let (v, ts) ← value? fuel ts
    match ts with
    | .closeBracket :: ts => some ([v], ts)
    | .comma :: ts => do
      let (vs, ts) ← elements? fuel ts
      some (v :: vs, ts)
    | _ => none

/-- The members of an object up to its end, at least one. -/
def members? : (fuel : Nat) → List Token → Option (List (Option String × Json) × List Token)
  | fuel + 1, key :: .colon :: ts => do
    let k ← name? key
    let (v, ts) ← value? fuel ts
    match ts with
    | .closeBrace :: ts => some ([(k, v)], ts)
    | .comma :: ts => do
      let (ms, ts) ← members? fuel ts
      some ((k, v) :: ms, ts)
    | _ => none
  | _, _ => none

end

/-- The tree of a sequence of tokens. A value takes two steps for each of its tokens at most. -/
def ofTokens? (ts : List Token) : Option Json :=
  match value? (2 * ts.length + 1) ts with
  | some (j, []) => some j
  | _ => none

/-- The tree of a text. -/
def read? (s : String) : Option Json := do
  let ts ← Token.all? s.toList
  ofTokens? ts

end Annotations.Json
