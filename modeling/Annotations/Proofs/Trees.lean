import Annotations.Json.Reader
import Annotations.Proofs.Tokens

/-!
# Trees are read back

A JSON tree is written as the text of its tokens, and read by splitting the text into tokens and
parsing these. Both steps come back to the tree (`Json.read?_write`), if the numbers in it are
numbers as they are written (`Json.Legible`); that is asked of nothing else.

Both are proved with anything behind the tree. What follows an element or a member is a comma or a
closing bracket, so that a number in its place has ended; and the parser takes at most two steps for
each token, one for a value and one for its place in an array or an object.
-/

namespace Annotations.Json

/-- Induction over trees: a property holds of every tree if it holds of those that are no arrays and
no objects, of an array when it holds of its elements, and of an object when it holds of its
members. -/
@[elab_as_elim]
theorem induction {P : Json → Prop}
    (other : ∀ j, (∀ vs, j ≠ .array vs) → (∀ ms, j ≠ .object ms) → P j)
    (array : ∀ vs, (∀ v ∈ vs, P v) → P (.array vs))
    (object : ∀ ms : List (String × Json), (∀ m ∈ ms, P m.2) → P (.object ms)) (j : Json) :
    P j := by
  induction j using (measure (sizeOf : Json → Nat)).wf.induction with
  | h j ih =>
    cases j with
    | array vs =>
      refine array vs fun v hv ↦ ih v ?_
      have element := List.sizeOf_lt_of_mem hv
      change sizeOf v < sizeOf (Json.array vs)
      rw [Json.array.sizeOf_spec]
      omega
    | object ms =>
      refine object ms fun m hm ↦ ih m.2 ?_
      have member := List.sizeOf_lt_of_mem hm
      obtain ⟨name, v⟩ := m
      simp only [Prod.mk.sizeOf_spec] at member
      change sizeOf v < sizeOf (Json.object ms)
      rw [Json.object.sizeOf_spec]
      omega
    | _ => exact other _ (by simp) (by simp)

/-- All numbers in the tree are numbers as they are written. -/
inductive Legible : Json → Prop
  | null : Legible .null
  | bool (b : Bool) : Legible (.bool b)
  | number {text : String} (isNumber : Token.IsNumber text) : Legible (.number text)
  | string (s : String) : Legible (.string s)
  | array {vs : List Json} (elements : ∀ v ∈ vs, Legible v) : Legible (.array vs)
  | object {ms : List (String × Json)} (members : ∀ m ∈ ms, Legible m.2) : Legible (.object ms)
  | unreadable : Legible .unreadable

theorem legible_int (n : Int) : Legible (int n) :=
  .number (Token.isNumber_int n)

/-! ### From the text to the tokens -/

section Lexing

open Token (Ends Splits)

/-- The characters of tokens that are written one after the other. -/
def characters (ts : List Token) : List Char :=
  ts.flatMap fun t ↦ t.text.toList

private theorem characters_append (ts us : List Token) :
    characters (ts ++ us) = characters ts ++ characters us :=
  List.flatMap_append

private theorem characters_cons (t : Token) (ts : List Token) :
    characters (t :: ts) = t.text.toList ++ characters ts :=
  List.flatMap_cons

theorem toList_write (j : Json) : j.write.toList = characters j.tokens := by
  rw [write, String.toList_join, List.flatMap_map, characters]

/-- The tokens come back from their text, whatever follows that no number goes on with. -/
def LexesBack (ts : List Token) : Prop :=
  ∀ s us, Ends s → Splits s us → Splits (characters ts ++ s) (ts ++ us)

/-- A token that is no number comes back whatever follows it. -/
private theorem splits_cons {t : Token} (other : ∀ text, t ≠ .number text) {s : List Char}
    {us : List Token} (h : Splits s us) : Splits (t.text.toList ++ s) (t :: us) :=
  h.cons fun text same ↦ absurd same (other text)

private theorem lexesBack_elementTokens {vs : List Json} (h : ∀ v ∈ vs, LexesBack v.tokens) :
    LexesBack (elementTokens vs) := by
  induction vs with
  | nil => exact fun s us _ rest ↦ rest
  | cons v vs ih =>
    obtain ⟨first, others⟩ := List.forall_mem_cons.1 h
    cases vs with
    | nil => exact first
    | cons w vs =>
      intro s us ends rest
      have next := splits_cons (t := .comma) (by simp) (ih others s us ends rest)
      have all := first _ _ (Token.ends_text (.inl rfl) _) next
      rw [elementTokens, characters_append, characters_cons]
      simpa only [List.append_assoc, List.cons_append] using all

private theorem lexesBack_memberTokens {ms : List (String × Json)}
    (h : ∀ m ∈ ms, LexesBack m.2.tokens) : LexesBack (memberTokens ms) := by
  induction ms with
  | nil => exact fun s us _ rest ↦ rest
  | cons m ms ih =>
    obtain ⟨first, others⟩ := List.forall_mem_cons.1 h
    obtain ⟨name, v⟩ := m
    have named {s : List Char} {us : List Token} (rest : Splits s us) :=
      splits_cons (t := .string name) (by simp) (splits_cons (t := .colon) (by simp) rest)
    cases ms with
    | nil =>
      intro s us ends rest
      have all := named (first s us ends rest)
      rw [memberTokens, characters_cons, characters_cons]
      simpa only [List.append_assoc, List.cons_append] using all
    | cons m ms =>
      intro s us ends rest
      have next := splits_cons (t := .comma) (by simp) (ih others s us ends rest)
      have all := named (first _ _ (Token.ends_text (.inl rfl) _) next)
      rw [memberTokens, characters_append, characters_cons, characters_cons, characters_cons]
      simpa only [List.append_assoc, List.cons_append] using all

/-- Tokens between brackets. -/
private theorem LexesBack.between {first last : Token} {ts : List Token} (h : LexesBack ts)
    (noNumber : ∀ text, first ≠ .number text)
    (closes : last = .closeBracket ∨ last = .closeBrace) :
    LexesBack (first :: ts ++ [last]) := by
  intro s us _ rest
  have isLast : ∀ text, last ≠ .number text := by rcases closes with rfl | rfl <;> simp
  have ends := Token.ends_text (.inr closes) s
  have all := splits_cons noNumber (h _ _ ends (splits_cons isLast rest))
  rw [characters_append, characters_cons, characters_cons]
  simpa only [List.append_assoc, List.cons_append, characters, List.flatMap_nil, List.append_nil,
    List.nil_append] using all

/-- **The tokens of a tree** come back from their text. -/
theorem Legible.lexesBack {j : Json} (h : Legible j) : LexesBack j.tokens := by
  have single {t : Token} (number : ∀ text, t = .number text → Token.IsNumber text) :
      LexesBack [t] := by
    intro s us ends rest
    have all := rest.cons (t := t) fun text same ↦ ⟨number text same, ends⟩
    rw [characters_cons, characters, List.flatMap_nil, List.append_nil]
    exact all
  induction h with
  | number isNumber =>
    refine single fun text same ↦ ?_
    cases same
    exact isNumber
  | array _ ih =>
    exact (lexesBack_elementTokens ih).between (by simp) (.inl rfl)
  | object _ ih =>
    exact (lexesBack_memberTokens ih).between (by simp) (.inr rfl)
  | _ => exact single (by simp)

end Lexing

/-! ### From the tokens to the tree -/

section Parsing

/-- The tree is parsed back from its tokens, whatever follows them, in two steps for each token. -/
def ParsesBack (j : Json) : Prop :=
  ∀ fuel ts, 2 * j.tokens.length ≤ fuel → value? fuel (j.tokens ++ ts) = some (j, ts)

/-- No element starts with a closing bracket. -/
private theorem elementTokens_cons_append_ne (v : Json) (vs : List Json) (ts us : List Token) :
    elementTokens (v :: vs) ++ ts ≠ .closeBracket :: us := by
  have first : ∀ ts, v.tokens ++ ts ≠ .closeBracket :: us := by cases v <;> simp [tokens]
  cases vs with
  | nil => exact first ts
  | cons w vs =>
    rw [elementTokens, List.append_assoc]
    exact first _

/-- No member starts with a closing brace. -/
private theorem memberTokens_cons_append_ne (m : String × Json) (ms : List (String × Json))
    (ts us : List Token) : memberTokens (m :: ms) ++ ts ≠ .closeBrace :: us := by
  cases ms <;> simp [memberTokens]

private theorem elements?_elementTokens {vs : List Json} (nonempty : vs ≠ [])
    (h : ∀ v ∈ vs, ParsesBack v) {fuel : Nat} (ts : List Token)
    (enough : 2 * (elementTokens vs).length + 1 ≤ fuel) :
    elements? fuel (elementTokens vs ++ .closeBracket :: ts) = some (vs, ts) := by
  induction vs generalizing fuel with
  | nil => exact absurd rfl nonempty
  | cons v vs ih =>
    obtain ⟨first, others⟩ := List.forall_mem_cons.1 h
    obtain ⟨fuel, rfl⟩ := Nat.exists_eq_succ_of_ne_zero (by omega : fuel ≠ 0)
    cases vs with
    | nil =>
      rw [elementTokens] at enough ⊢
      rw [elements?, first fuel _ (by omega)]
      rfl
    | cons w vs =>
      rw [elementTokens, List.length_append, List.length_cons] at enough
      have enough : 2 * (elementTokens (w :: vs)).length + 1 ≤ fuel := by omega
      have rest := ih (by simp) others enough
      rw [elementTokens, List.append_assoc, List.cons_append, elements?, first fuel _ (by omega)]
      simp [rest]

private theorem members?_memberTokens {ms : List (String × Json)} (nonempty : ms ≠ [])
    (h : ∀ m ∈ ms, ParsesBack m.2) {fuel : Nat} (ts : List Token)
    (enough : 2 * (memberTokens ms).length + 1 ≤ fuel) :
    members? fuel (memberTokens ms ++ .closeBrace :: ts) =
      some (ms.map fun m ↦ (some m.1, m.2), ts) := by
  induction ms generalizing fuel with
  | nil => exact absurd rfl nonempty
  | cons m ms ih =>
    obtain ⟨name, v⟩ := m
    obtain ⟨first, others⟩ : ParsesBack v ∧ ∀ m ∈ ms, ParsesBack m.2 := List.forall_mem_cons.1 h
    obtain ⟨fuel, rfl⟩ := Nat.exists_eq_succ_of_ne_zero (by omega : fuel ≠ 0)
    cases ms with
    | nil =>
      rw [memberTokens, List.length_cons, List.length_cons] at enough
      rw [memberTokens, List.cons_append, List.cons_append, members?, first fuel _ (by omega)]
      rfl
    | cons m ms =>
      rw [memberTokens, List.length_append, List.length_cons, List.length_cons,
        List.length_cons] at enough
      have enough : 2 * (memberTokens (m :: ms)).length + 1 ≤ fuel := by omega
      have rest := ih (by simp) others enough
      rw [memberTokens, List.append_assoc, List.cons_append, List.cons_append, List.cons_append,
        members?, first fuel _ (by omega)]
      simp [name?, rest]

private theorem ofMembers_map (ms : List (String × Json)) :
    ofMembers (ms.map fun m ↦ (some m.1, m.2)) = object ms := by
  have all : (ms.map fun m ↦ (some m.1, m.2)).mapM
      (fun m ↦ m.1.map fun k ↦ (k, m.2)) = some ms := by
    induction ms with
    | nil => rfl
    | cons m ms ih => simp [ih]
  rw [ofMembers, all]

/-- **Every tree** is parsed back from its tokens. -/
theorem Legible.parsesBack {j : Json} (h : Legible j) : ParsesBack j := by
  induction h with
  | @array vs _ ih =>
    intro fuel ts enough
    rw [tokens, List.length_append, List.length_cons, List.length_singleton] at enough
    obtain ⟨fuel, rfl⟩ := Nat.exists_eq_succ_of_ne_zero (by omega : fuel ≠ 0)
    rw [tokens, List.cons_append, List.cons_append, List.append_assoc, List.singleton_append]
    cases vs with
    | nil => rfl
    | cons v vs =>
      rw [value?, elements?_elementTokens (by simp) ih ts (by omega)]
      · rfl
      · exact elementTokens_cons_append_ne v vs _
  | @object ms _ ih =>
    intro fuel ts enough
    rw [tokens, List.length_append, List.length_cons, List.length_singleton] at enough
    obtain ⟨fuel, rfl⟩ := Nat.exists_eq_succ_of_ne_zero (by omega : fuel ≠ 0)
    rw [tokens, List.cons_append, List.cons_append, List.append_assoc, List.singleton_append]
    cases ms with
    | nil => rfl
    | cons m ms =>
      rw [value?, members?_memberTokens (by simp) ih ts (by omega)]
      · exact congrArg (fun j ↦ some (j, ts)) (ofMembers_map (m :: ms))
      · exact memberTokens_cons_append_ne m ms _
  | _ =>
    intro fuel ts enough
    obtain ⟨fuel, rfl⟩ := Nat.exists_eq_succ_of_ne_zero
      (by simp only [tokens, List.length_singleton] at enough; omega : fuel ≠ 0)
    rfl

end Parsing

/-- **A tree is read back from its text.** -/
theorem read?_write {j : Json} (h : Legible j) : read? j.write = some j := by
  have split : Token.all? j.write.toList = some j.tokens := by
    have splits := h.lexesBack [] [] Token.ends_nil Token.splits_nil
    rw [List.append_nil, List.append_nil] at splits
    rw [toList_write]
    exact splits.all?
  have parse := h.parsesBack (2 * j.tokens.length + 1) [] (by omega)
  rw [List.append_nil] at parse
  simp [read?, split, ofTokens?, parse]

end Annotations.Json
