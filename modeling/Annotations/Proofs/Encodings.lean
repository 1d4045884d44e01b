import Annotations.Proofs.Parts
import Annotations.Proofs.Places
import Annotations.Value.OfOutput

/-!
# How arrays are encoded

A method body may give back an array in four ways: as a list of types, of constants or of
annotations, or as a list of any outputs, which may be arrays again. Values have one kind of array
only. So bringing an output into the form of a value has to forget the encoding, and nothing else.

* The outputs that an array lists are the same in all its encodings (`Output.elements?`), and
  **the elements of the value are the values of these** (`Value.elements?_ofOutput`). This is the
  only lemma that looks at the encodings.
* Hence the values at a **place** inside are the values of the outputs at this place
  (`Value.at?_ofOutput`), and replacing an encoding at any depth by the general one
  (`Output.Generalizes`) makes no difference.
* All that is contained in the value, down to what its types declare, is found at a place
  (`Value.contains_ofOutput`): nothing live is made up, and an annotation is read with the given
  inspector wherever it stands.
-/

namespace Annotations

/-! ### Outputs at a place -/

namespace Output

/-- The outputs that are listed by an array, in any of its encodings. -/
def elements? : Output → Option (List Output)
  | types ts => some (ts.map type)
  | constants cs => some (cs.map constant)
  | objects os => some (os.map object)
  | array os => some os
  | _ => none

/-- The output at a place in the arrays. -/
def at? : Place → Output → Option Output
  | [], o => some o
  | i :: p, o => (o.elements? >>= (·[i]?)).bind (at? p)

/-- The encoding of one array, at any depth, is replaced by the general one. -/
inductive Generalizes : Output → Output → Prop
  | here {o : Output} {os : List Output} (lists : o.elements? = some os) : Generalizes o (.array os)
  | element (before : List Output) {o o' : Output} (after : List Output)
    (inside : Generalizes o o') :
    Generalizes (.array (before ++ o :: after)) (.array (before ++ o' :: after))

theorem at?_append (p q : Place) (o : Output) : o.at? (p ++ q) = (o.at? p).bind (at? q) := by
  induction p generalizing o with
  | nil => rfl
  | cons i p ih =>
    rw [List.cons_append, at?, at?, Option.bind_assoc]
    exact Option.bind_congr fun x _ ↦ ih x

end Output

namespace Value

/-- The elements of an array. -/
def elements? : Value → Option (List Value)
  | array vs => some vs
  | _ => none

/-- The value at a place in the arrays. -/
def at? : Place → Value → Option Value
  | [], v => some v
  | i :: p, v => (v.elements? >>= (·[i]?)).bind (at? p)

theorem elements?_eq_some_iff {v : Value} {vs : List Value} :
    v.elements? = some vs ↔ v = array vs := by
  cases v <;> simp [elements?]

/-! ### Values of outputs -/

variable {i : Inspector} {o o' : Output} {os : List Output}

/-- **The elements of the value are the values of the elements**, in all encodings. -/
theorem elements?_ofOutput (i : Inspector) (o : Output) :
    (ofOutput i o).elements? = o.elements?.map (List.map (ofOutput i)) := by
  cases o with
  | array os => exact congrArg some (ofOutputs_eq_map i os)
  | types ts => simp [ofOutput, elements?, Output.elements?]
  | constants cs => simp [ofOutput, elements?, Output.elements?]
  | objects os => simp [ofOutput, elements?, Output.elements?]
  | _ => rfl

/-- So a list of outputs has one value, however it is encoded. -/
theorem ofOutput_of_elements (h : o.elements? = some os) :
    ofOutput i o = array (os.map (ofOutput i)) :=
  elements?_eq_some_iff.1 ((elements?_ofOutput i o).trans (congrArg _ h))

theorem ofOutput_eq_of_generalizes (h : o.Generalizes o') : ofOutput i o = ofOutput i o' := by
  induction h with
  | here lists => rw [ofOutput_of_elements lists, ofOutput_of_elements (o := .array _) rfl]
  | element before after _ ih =>
    simp only [ofOutput, ofOutputs_eq_map, List.map_append, List.map_cons, ih]

/-- **The value at a place is the value of the output there.** -/
theorem at?_ofOutput (i : Inspector) (p : Place) (o : Output) :
    (ofOutput i o).at? p = (o.at? p).map (ofOutput i) := by
  induction p generalizing o with
  | nil => rfl
  | cons n p ih =>
    have element : ((ofOutput i o).elements? >>= (·[n]?)) =
        (o.elements? >>= (·[n]?)).map (ofOutput i) := by
      rw [elements?_ofOutput]
      cases o.elements? <;> simp
    rw [at?, Output.at?, element, Option.bind_map, Option.map_bind]
    exact Option.bind_congr fun x _ ↦ ih x

theorem at?_ofOutput_eq_some_iff {p : Place} {v : Value} :
    (ofOutput i o).at? p = some v ↔ ∃ x, o.at? p = some x ∧ ofOutput i x = v := by
  rw [at?_ofOutput, Option.map_eq_some_iff]

/-! ### What an output becomes -/

theorem ofOutput_eq_array_iff {vs : List Value} :
    ofOutput i o = array vs ↔ ∃ os, o.elements? = some os ∧ os.map (ofOutput i) = vs := by
  rw [← elements?_eq_some_iff, elements?_ofOutput, Option.map_eq_some_iff]

/-- A constant stays the same object. -/
theorem ofOutput_eq_constant_iff {c : Constant} :
    ofOutput i o = constant c ↔ ∃ x, o = .constant x ∧ c = .live x := by
  cases o <;> simp [ofOutput, ofInstance, eq_comm]

/-- An annotation stays the same object, and is read with the inspector. -/
theorem ofOutput_eq_nested_iff {d : Description} :
    ofOutput i o = nested d ↔ ∃ x, o = .object x ∧ d = .live ⟨x, i⟩ := by
  cases o <;> simp [ofOutput, ofInstance, eq_comm]

theorem ofOutput_eq_type_iff {t : TypeDecl} :
    ofOutput i o = type t ↔ ∃ x, o = .type x ∧ t = x.describe := by
  cases o <;> simp [ofOutput, ofInstance, eq_comm]

/-- **All that is contained in the value stands at a place**: it is the value of the output there,
or what this consists of, which is a type or an annotation. -/
theorem contains_ofOutput {q : Part} (h : (Part.value (ofOutput i o)).Contains q) :
    ∃ p x, o.at? p = some x ∧
      (q = .value (ofOutput i x) ∨ (∃ t, x = .type t ∧ q = .type t.describe) ∨
        ∃ b, x = .object b ∧ q = .live ⟨b, i⟩) := by
  induction h with
  | refl => exact ⟨[], o, rfl, .inl rfl⟩
  | @tail q r _ child ih =>
    obtain ⟨p, x, found, rfl | ⟨t, rfl, rfl⟩ | ⟨b, rfl, rfl⟩⟩ := ih
    · cases hv : ofOutput i x with
      | type t =>
        obtain ⟨t, rfl, rfl⟩ := ofOutput_eq_type_iff.1 hv
        exact ⟨p, _, found, .inr (.inl ⟨t, rfl, List.mem_singleton.1 child⟩)⟩
      | constant c =>
        obtain ⟨c, rfl, rfl⟩ := ofOutput_eq_constant_iff.1 hv
        cases child
      | nested d =>
        obtain ⟨b, rfl, rfl⟩ := ofOutput_eq_nested_iff.1 hv
        exact ⟨p, _, found, .inr (.inr ⟨b, rfl, List.mem_singleton.1 child⟩)⟩
      | array vs =>
        obtain ⟨os, lists, rfl⟩ := ofOutput_eq_array_iff.1 hv
        rw [hv] at child
        obtain ⟨v, hv, rfl⟩ := List.mem_map.1 child
        obtain ⟨y, hy, rfl⟩ := List.mem_map.1 hv
        obtain ⟨n, hn⟩ := List.mem_iff_getElem?.1 hy
        refine ⟨p ++ [n], y, ?_, .inl rfl⟩
        rw [Output.at?_append, found]
        simp [Output.at?, lists, hn]
      | _ =>
        rw [hv] at child
        cases child
    · -- The types in an output declare no default values.
      obtain ⟨v, default, -⟩ := List.mem_map.1 child
      obtain ⟨a, ha, default⟩ := List.mem_filterMap.1 default
      obtain ⟨m, -, rfl⟩ := List.mem_map.1 ha
      cases default
    · cases child

/-- **Values forget how arrays are encoded, and nothing else.** For every inspector,

* any number of encodings, at any depth, may be replaced by the general one, or the other way
  round: the value stays the same;
* at every place there is the value of the output that stands there; so for an array it is the array
  of the values of its elements, in the same number and order;
* a constant stands where the output has the same constant, and it is live; an annotation stands
  where the output has the same object, and it is live and read with the inspector;
* no other constants and no other live annotations are contained in the value, also not in the types
  in it. -/
theorem canonical_ofOutput (i : Inspector) (o : Output) :
    (∀ o', Relation.EqvGen Output.Generalizes o o' → ofOutput i o' = ofOutput i o) ∧
    (∀ p, (ofOutput i o).at? p = (o.at? p).map (ofOutput i)) ∧
    (∀ p vs, (ofOutput i o).at? p = some (array vs) ↔
      ∃ x os, o.at? p = some x ∧ x.elements? = some os ∧ os.map (ofOutput i) = vs) ∧
    (∀ p c, (ofOutput i o).at? p = some (constant c) ↔
      ∃ x, o.at? p = some (.constant x) ∧ c = .live x) ∧
    (∀ p d, (ofOutput i o).at? p = some (nested d) ↔
      ∃ x, o.at? p = some (.object x) ∧ d = .live ⟨x, i⟩) ∧
    (∀ c, (Part.value (ofOutput i o)).Contains (.value (constant c)) →
      ∃ p, (ofOutput i o).at? p = some (constant c)) ∧
    ∀ l, (Part.value (ofOutput i o)).Contains (.live l) →
      ∃ p, (ofOutput i o).at? p = some (nested (.live l)) := by
  refine ⟨fun o' same ↦ ?_, fun p ↦ at?_ofOutput i p o, fun p vs ↦ ?_, fun p c ↦ ?_, fun p d ↦ ?_,
    fun c contains ↦ ?_, fun l contains ↦ ?_⟩
  · -- To have the same value is an equivalence that contains the single replacements.
    refine ((eq_equivalence.comap (ofOutput i)).eqvGen_iff.1 (same.mono fun _ _ h ↦ ?_)).symm
    exact ofOutput_eq_of_generalizes h
  · simp only [at?_ofOutput_eq_some_iff, ofOutput_eq_array_iff, exists_and_left]
  · rw [at?_ofOutput_eq_some_iff]
    constructor
    · rintro ⟨x, found, same⟩
      obtain ⟨c, rfl, rfl⟩ := ofOutput_eq_constant_iff.1 same
      exact ⟨c, found, rfl⟩
    · rintro ⟨c, found, rfl⟩
      exact ⟨.constant c, found, rfl⟩
  · rw [at?_ofOutput_eq_some_iff]
    constructor
    · rintro ⟨x, found, same⟩
      obtain ⟨b, rfl, rfl⟩ := ofOutput_eq_nested_iff.1 same
      exact ⟨b, found, rfl⟩
    · rintro ⟨b, found, rfl⟩
      exact ⟨.object b, found, rfl⟩
  · obtain ⟨p, x, found, same | ⟨_, -, other⟩ | ⟨_, -, other⟩⟩ := contains_ofOutput contains
    · exact ⟨p, at?_ofOutput_eq_some_iff.2 ⟨x, found, (Part.value.inj same).symm⟩⟩
    · cases other
    · cases other
  · obtain ⟨p, x, found, other | ⟨_, -, other⟩ | ⟨b, rfl, same⟩⟩ := contains_ofOutput contains
    · cases other
    · cases other
    · cases same
      exact ⟨p, at?_ofOutput_eq_some_iff.2 ⟨_, found, rfl⟩⟩

/-- Two types and a list of two colors, in encodings of their own, beside two markers. -/
def shelf (markers : Output) : Output :=
  .array [.types [timeoutException, runnable], .array [.constants [.color .blue, .color .red]],
    markers]

/-- The markers may be encoded as annotations or as any outputs; the second one is found in both
cases, and read with the inspector. -/
theorem canonical_ofOutput_shelf :
    Relation.EqvGen Output.Generalizes (shelf (.objects [.marker ⟨1⟩, .marker ⟨2⟩]))
      (shelf (.array [.object (.marker ⟨1⟩), .object (.marker ⟨2⟩)])) ∧
    ofOutput .plain (shelf (.array [.object (.marker ⟨1⟩), .object (.marker ⟨2⟩)])) =
      ofOutput .plain (shelf (.objects [.marker ⟨1⟩, .marker ⟨2⟩])) ∧
    (ofOutput .plain (shelf (.objects [.marker ⟨1⟩, .marker ⟨2⟩]))).at? [2, 1] =
      some (nested (.live ⟨.marker ⟨2⟩, .plain⟩)) ∧
    (ofOutput .plain (shelf (.objects [.marker ⟨1⟩, .marker ⟨2⟩]))).at? [1, 0, 1] =
      some (constant (.live (.color .red))) := by
  have step : Relation.EqvGen Output.Generalizes (shelf (.objects [.marker ⟨1⟩, .marker ⟨2⟩]))
      (shelf (.array [.object (.marker ⟨1⟩), .object (.marker ⟨2⟩)])) :=
    .rel _ _ (.element [_, _] [] (.here rfl))
  obtain ⟨same, -, -, constants, nested, -⟩ :=
    canonical_ofOutput .plain (shelf (.objects [.marker ⟨1⟩, .marker ⟨2⟩]))
  exact ⟨step, same _ step, (nested _ _).2 ⟨_, rfl, rfl⟩, (constants _ _).2 ⟨_, rfl, rfl⟩⟩

end Value

end Annotations
