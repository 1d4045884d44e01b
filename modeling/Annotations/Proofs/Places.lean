import Annotations.Proofs.ByName

/-!
# Places in two values

A comparison walks through two values side by side. Where it can get to is a **place**: the numbers
of the accessors and of the array elements on the way there, from the outside in. The accessors are
those of the left side's types, and both sides are asked by them.

`Value.Leads x y p u w` says that the place `p` can be read on both sides all along, and that `u`
and `w` stand there. A place leads to one pair of values at most (`Leads.unique`), and is taken
apart at its first step (`leads_cons_iff`).
-/

namespace Annotations

/-- The numbers of accessors and elements that lead to a place, from the outside in. -/
abbrev Place := List Nat

namespace Value

/-- The `i`-th accessor of the left annotation, read on both sides, or the `i`-th elements of two
arrays. -/
inductive Step (i : Nat) : Value → Value → Value → Value → Prop
  | accessor {l r : Description} {a : Accessor} {x y : Value} (own : l.type.accessors[i]? = some a)
    (left : (l.get a.handle).result = .ok x) (right : (r.get a.handle).result = .ok y) :
    Step i (.nested l) (.nested r) x y
  | element {xs ys : List Value} {x y : Value} (left : xs[i]? = some x) (right : ys[i]? = some y) :
    Step i (.array xs) (.array ys) x y

/-- The place can be read on both sides all along, and leads to the last two values. -/
inductive Leads : Value → Value → Place → Value → Value → Prop
  | here (x y : Value) : Leads x y [] x y
  | step {i : Nat} {p : Place} {x y u w s t : Value} (first : Step i x y u w)
    (rest : Leads u w p s t) : Leads x y (i :: p) s t

variable {i : Nat} {p : Place} {x y u w s t : Value}

theorem Step.unique {u' w' : Value} (h : Step i x y u w) (k : Step i x y u' w') :
    u = u' ∧ w = w' := by
  cases h with
  | accessor own left right =>
    cases k with
    | accessor own' left' right' =>
      cases own.symm.trans own'
      exact ⟨Except.ok.inj (left.symm.trans left'), Except.ok.inj (right.symm.trans right')⟩
  | element left right =>
    cases k with
    | element left' right' =>
      exact ⟨Option.some.inj (left.symm.trans left'), Option.some.inj (right.symm.trans right')⟩

@[simp] theorem leads_nil_iff : Leads x y [] u w ↔ u = x ∧ w = y := by
  constructor
  · intro h
    cases h
    exact ⟨rfl, rfl⟩
  · rintro ⟨rfl, rfl⟩
    exact .here _ _

theorem leads_cons_iff : Leads x y (i :: p) s t ↔ ∃ u w, Step i x y u w ∧ Leads u w p s t := by
  constructor
  · intro h
    cases h with
    | step first rest => exact ⟨_, _, first, rest⟩
  · rintro ⟨u, w, first, rest⟩
    exact .step first rest

/-- After a step that is known, the rest of the place leads on. -/
theorem Step.leads_cons_iff (h : Step i x y u w) : Leads x y (i :: p) s t ↔ Leads u w p s t := by
  constructor
  · intro k
    obtain ⟨u', w', first, rest⟩ := Value.leads_cons_iff.1 k
    obtain ⟨rfl, rfl⟩ := h.unique first
    exact rest
  · exact .step h

/-- **A place leads to one pair of values.** -/
theorem Leads.unique {s' t' : Value} (h : Leads x y p s t) (k : Leads x y p s' t') :
    s = s' ∧ t = t' := by
  induction h with
  | here x y =>
    obtain ⟨rfl, rfl⟩ := leads_nil_iff.1 k
    exact ⟨rfl, rfl⟩
  | step first _ ih => exact ih (first.leads_cons_iff.1 k)

/-- What both sides report under an accessor of the left one is a step away. -/
theorem exists_step_of_mem {l r : Description} {a : Accessor} (ha : a ∈ l.type.accessors)
    (left : (l.get a.handle).result = .ok x) (right : (r.get a.handle).result = .ok y) :
    ∃ i, Step i (.nested l) (.nested r) x y := by
  obtain ⟨i, hi⟩ := List.mem_iff_getElem?.1 ha
  exact ⟨i, .accessor hi left right⟩

/-- Elements at the same place of two arrays are a step away. -/
theorem exists_step_of_mem_zip {xs ys : List Value} (h : (x, y) ∈ xs.zip ys) :
    ∃ i, Step i (.array xs) (.array ys) x y := by
  obtain ⟨i, hi⟩ := List.mem_iff_getElem?.1 h
  obtain ⟨left, right⟩ := List.getElem?_zip_eq_some.1 hi
  exact ⟨i, .element left right⟩

/-- The number of steps that can be taken into a value. -/
def width : Value → Nat
  | nested d => d.type.accessors.length
  | array vs => vs.length
  | _ => 0

theorem Step.lt_width (h : Step i x y u w) : i < x.width := by
  cases h with
  | accessor own => exact (List.getElem?_eq_some_iff.1 own).1
  | element left => exact (List.getElem?_eq_some_iff.1 left).1

end Value

end Annotations
