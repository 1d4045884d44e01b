import Annotations.Proofs.Parts
import Annotations.Proofs.Reach

/-!
# What answers consist of

A stated annotation answers with a value that it consists of. A live annotation answers with the
value that its inspector makes of what a method body has given back. If that is the usual one, then
the types in it have no default values, its annotations are live, and they are read with one
inspector.

So there are properties of parts that need to be known of an annotation only once, before it is
asked for anything: what holds throughout an annotation also holds throughout all of its answers
(`Part.Inherited`, `Part.Inherited.answer`). Where outputs are taken as usual, a property is
inherited if it is passed on from live annotation to live annotation and permits everything that is
given by value (`Part.Inherited.of_usual`).
-/

namespace Annotations

/-! ### What inspectors pass on -/

namespace Inspector

/-- The inspector makes the usual values of outputs, and the annotations in them are read with the
second one. -/
def PassesTo (i j : Inspector) : Prop :=
  ∀ o, i.normalize o = pure (Value.ofOutput j o)

/-- The inspector makes the usual values of outputs, and the annotations in them are read with the
inspector itself. -/
def PassesOn (i : Inspector) : Prop :=
  i.PassesTo i

/-- The inspector makes the usual values of outputs, and the annotations in them are read with the
inspector itself, or with another one of which the same holds. -/
inductive Usual : Inspector → Prop
  | itself {i : Inspector} (passes : i.PassesOn) : Usual i
  | other {i j : Inspector} (passes : i.PassesTo j) (usual : Usual j) : Usual i

theorem passesOn_plain : plain.PassesOn := fun _ ↦ rfl

end Inspector

namespace Part

/-- An annotation that occurs in a value is a part of it. -/
theorem contains_of_holds {v : Value} {d : Description} (h : v.Holds d) :
    (value v).Contains (ofDescription d) := by
  induction h with
  | nested d => exact contains_of_mem_children List.mem_cons_self
  | array mem _ ih =>
    exact (contains_of_mem_children (List.mem_map_of_mem mem)).trans ih

/-! ### Usual values -/

/-- A property that excludes no value and no type without default values. -/
structure Lenient (P : Part → Prop) : Prop where
  value : ∀ v, P (.value v)
  type : ∀ t : LiveType, P (.type t.describe)

namespace Lenient

variable {P : Part → Prop}

section

variable (lenient : Lenient P)
include lenient

theorem describe (t : LiveType) : (Part.type t.describe).Throughout P := by
  refine throughout_type_iff.2 ⟨lenient.type t, fun a ha v default ↦ ?_⟩
  obtain ⟨m, -, rfl⟩ := List.mem_map.1 ha
  cases default

private theorem scalar (v : Value) (scalar : v.IsScalar) : (Part.value v).Throughout P :=
  (throughout_scalar_iff scalar).2 (lenient.value v)

private theorem ofType (t : LiveType) : (Part.value (.type t.describe)).Throughout P :=
  throughout_typed_iff.2 ⟨lenient.value _, lenient.describe t⟩

private theorem ofConstant (c : LiveConstant) :
    (Part.value (.constant (.live c))).Throughout P :=
  throughout_liveConstant_iff.2 (lenient.value _)

private theorem ofInstance {i : Inspector} {o : Instance} (live : P (.live ⟨o, i⟩)) :
    (Part.value (.ofInstance i o)).Throughout P := by
  refine throughout_iff.2 ⟨lenient.value _, fun q hq ↦ ?_⟩
  obtain rfl := List.mem_singleton.1 hq
  exact throughout_live_iff.2 live

/-- The property holds throughout an array when it holds throughout the elements. -/
private theorem ofMap {α : Type} {f : α → Value} (h : ∀ a, (Part.value (f a)).Throughout P)
    (as : List α) : (Part.value (.array (as.map f))).Throughout P := by
  refine throughout_array_iff.2 ⟨lenient.value _, fun v hv ↦ ?_⟩
  obtain ⟨a, -, rfl⟩ := List.mem_map.1 hv
  exact h a

end

mutual

/-- The usual value for what a method body gives back has the property throughout. -/
theorem ofOutput (lenient : Lenient P) {i : Inspector} (live : ∀ o, P (.live ⟨o, i⟩)) :
    (o : Output) → (Part.value (.ofOutput i o)).Throughout P
  | .boolean b => lenient.scalar (.boolean b) trivial
  | .byte n => lenient.scalar (.byte n) trivial
  | .char c => lenient.scalar (.char c) trivial
  | .short n => lenient.scalar (.short n) trivial
  | .int n => lenient.scalar (.int n) trivial
  | .long n => lenient.scalar (.long n) trivial
  | .float x => lenient.scalar (.float x) trivial
  | .double x => lenient.scalar (.double x) trivial
  | .string s => lenient.scalar (.string s) trivial
  | .type t => lenient.ofType t
  | .types ts => lenient.ofMap lenient.ofType ts
  | .constant c => lenient.ofConstant c
  | .constants cs => lenient.ofMap lenient.ofConstant cs
  | .object o => lenient.ofInstance (live o)
  | .objects os => lenient.ofMap (fun o ↦ lenient.ofInstance (live o)) os
  | .array os => throughout_array_iff.2 ⟨lenient.value _, lenient.ofOutputs live os⟩

private theorem ofOutputs (lenient : Lenient P) {i : Inspector}
    (live : ∀ o, P (.live ⟨o, i⟩)) :
    (os : List Output) → ∀ v ∈ Value.ofOutputs i os, (Part.value v).Throughout P
  | [] => fun _ h ↦ (List.not_mem_nil h).elim
  | o :: os => List.forall_mem_cons.2 ⟨lenient.ofOutput live o, lenient.ofOutputs live os⟩

end

end Lenient

/-! ### Answers -/

/-- A property that the parts of an answer have when the parts of the annotation have it: with a
live annotation, it holds throughout all that the inspector makes of outputs. -/
structure Inherited (P : Part → Prop) : Prop where
  normalize : ∀ (l : Live) (o : Output), P (.live l) →
    (Part.value (l.inspector.normalize o).value).Throughout P

namespace Inherited

variable {P : Part → Prop}

/-- Where outputs are taken as usual, a lenient property is inherited if it holds of all that is
read with the inspector that is passed to. -/
theorem of_usual (lenient : Lenient P)
    (live : ∀ l, P (.live l) → ∃ i, l.inspector.PassesTo i ∧ ∀ o, P (.live ⟨o, i⟩)) :
    Inherited P where
  normalize l o hl := by
    obtain ⟨i, passes, nested⟩ := live l hl
    rw [passes o]
    exact lenient.ofOutput nested o

/-- **What holds throughout an annotation holds throughout its answers.** -/
theorem answer (inherited : Inherited P) {d : Description} (hd : (ofDescription d).Throughout P)
    {h : Handle} {v : Value} (hv : (d.get h).result = .ok v) : (Part.value v).Throughout P := by
  cases d with
  | stated s =>
    obtain ⟨-, found⟩ := Stated.get_eq_ok_iff.1 hv
    obtain ⟨before, after, values, -⟩ := List.lookup_eq_some_iff.1 found
    exact (throughout_stated_iff.1 hd).2.2 _ (values ▸ List.mem_append_right _ List.mem_cons_self)
  | live l =>
    rw [Description.get_live, Live.get] at hv
    split at hv
    · obtain ⟨-, -, hv⟩ := Eval.result_bind_eq_ok.1 hv
      obtain ⟨m, -, hv⟩ := Eval.result_bind_eq_ok.1 hv
      obtain ⟨o, -, hv⟩ := Eval.result_bind_eq_ok.1 hv
      cases hv
      exact inherited.normalize l o hd.self
    · cases hv

/-- What holds throughout an annotation holds throughout the annotations in its answers. -/
theorem inside (inherited : Inherited P) {d : Description} (hd : (ofDescription d).Throughout P)
    {h : Handle} {v : Value} (hv : (d.get h).result = .ok v) {e : Description} (he : v.Holds e) :
    (ofDescription e).Throughout P :=
  (inherited.answer hd hv).of_contains (contains_of_holds he)

/-- So it holds throughout everything that can be reached. -/
theorem everywhere (inherited : Inherited P) {d : Description}
    (hd : (ofDescription d).Throughout P) :
    d.Everywhere fun e ↦ (ofDescription e).Throughout P :=
  Description.everywhere_of_closed (fun _ _ hd ⟨_, ⟨_, _, hv⟩, he⟩ ↦ inherited.inside hd hv he)
    (fun _ ↦ id) hd

end Inherited

end Part

end Annotations
