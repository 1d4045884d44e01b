import Annotations.Proofs.Alike
import Mathlib.Logic.Relation

/-!
# What can be reached from an annotation

An annotation reports a value under each accessor that its type declares (`Description.Reports`),
and encloses the annotations that occur in these values. What can be reached from it in any number
of such steps may have no end: a live annotation can enclose a new one each time.

`Description.Everywhere P` says that `P` holds of all that can be reached. It is unfolded one level
at a time (`everywhere_iff`); an annotation that is known all through is unfolded down to its last
values (`everywhere_of_values`).
-/

namespace Annotations

namespace Description

/-- The annotation reports the value under one of its own accessors. -/
def Reports (d : Description) (v : Value) : Prop :=
  ∃ a ∈ d.type.accessors, (d.get a.handle).result = .ok v

/-- The second annotation occurs in a value that the first one reports. -/
def Encloses (d e : Description) : Prop :=
  ∃ v, d.Reports v ∧ v.Holds e

/-- The second annotation is the first one or is enclosed in it, at any depth. -/
def Reaches : Description → Description → Prop :=
  Relation.ReflTransGen Encloses

/-- `P` holds of the annotation and of all that are enclosed in it, at any depth. -/
def Everywhere (P : Description → Prop) (d : Description) : Prop :=
  ∀ e, d.Reaches e → P e

end Description

/-- `P` holds of the annotations in the value and of all that are enclosed in them, at any depth. -/
def Value.Everywhere (P : Description → Prop) (v : Value) : Prop :=
  ∀ d, v.Holds d → d.Everywhere P

namespace Description

variable {P Q : Description → Prop} {d : Description} {v : Value}

theorem Everywhere.self (h : d.Everywhere P) : P d :=
  h d .refl

theorem Everywhere.mono (sub : ∀ d, P d → Q d) (h : d.Everywhere P) : d.Everywhere Q :=
  fun e he ↦ sub e (h e he)

/-- What is reported is as good as what reports it. -/
theorem Everywhere.value (h : d.Everywhere P) (reports : d.Reports v) : v.Everywhere P := by
  intro e he f hf
  exact h f (hf.head ⟨v, reports, he⟩)

/-- **One level at a time**: the annotation itself, and the values that it reports. -/
theorem everywhere_iff :
    d.Everywhere P ↔ P d ∧ ∀ v, d.Reports v → v.Everywhere P := by
  constructor
  · intro h
    exact ⟨h.self, fun v reports ↦ h.value reports⟩
  · rintro ⟨self, values⟩ e he
    rcases Relation.ReflTransGen.cases_head he with rfl | ⟨f, ⟨v, reports, holds⟩, hfe⟩
    · exact self
    · exact values v reports f holds e hfe

/-- What encloses only its own kind, of which `P` holds, is good all through, however deep. -/
theorem everywhere_of_closed (closed : ∀ d e, Q d → d.Encloses e → Q e) (sub : ∀ d, Q d → P d)
    (h : Q d) : d.Everywhere P := by
  intro e he
  apply sub
  induction he with
  | refl => exact h
  | tail _ encloses ih => exact closed _ _ ih encloses

/-- Where the values of all accessors are listed in order, each accessor gives one of them. -/
theorem mem_of_values {vs : List Value}
    (reported : d.type.accessors.map (fun a ↦ (d.get a.handle).result) = vs.map .ok)
    {a : Accessor} (ha : a ∈ d.type.accessors) : ∃ v ∈ vs, (d.get a.handle).result = .ok v := by
  have mem : (d.get a.handle).result ∈ vs.map .ok :=
    reported ▸ List.mem_map_of_mem (f := fun a ↦ (d.get a.handle).result) ha
  obtain ⟨v, hv, heq⟩ := List.mem_map.1 mem
  exact ⟨v, hv, heq.symm⟩

/-- The values that an annotation reports may be listed in the order of its accessors. -/
theorem everywhere_of_values (vs : List Value) (self : P d)
    (reported : d.type.accessors.map (fun a ↦ (d.get a.handle).result) = vs.map .ok)
    (values : ∀ v ∈ vs, v.Everywhere P) : d.Everywhere P := by
  refine everywhere_iff.2 ⟨self, fun v ⟨a, ha, hv⟩ ↦ ?_⟩
  obtain ⟨u, hu, read⟩ := mem_of_values reported ha
  cases read.symm.trans hv
  exact values _ hu

/-- What is reported under a name is reported under an accessor. -/
theorem reports_of_named {n : String} (h : (d.named n).result = .ok v) : d.Reports v := by
  rcases hfound : d.type.accessor? n with - | a
  · simp [named, hfound] at h
  · rw [named, hfound] at h
    exact ⟨a, List.mem_of_find?_eq_some hfound, h⟩

end Description

namespace Value

variable {P : Description → Prop}

@[simp] theorem everywhere_nested_iff {d : Description} :
    (nested d).Everywhere P ↔ d.Everywhere P := by
  constructor
  · intro h
    exact h d (.nested d)
  · rintro h e he
    rw [holds_nested_iff.1 he]
    exact h

@[simp] theorem everywhere_array_iff {vs : List Value} :
    (array vs).Everywhere P ↔ ∀ v ∈ vs, v.Everywhere P := by
  constructor
  · intro h v hv d hd
    exact h d (.array hv hd)
  · intro h d hd
    obtain ⟨v, hv, hvd⟩ := holds_array_iff.1 hd
    exact h v hv d hvd

/-- A number holds no annotation. -/
@[simp] theorem everywhere_int (n : Int32) : (int n).Everywhere P := by
  intro d hd
  cases hd

/-- Neither does a type; default values do not occur in it. -/
@[simp] theorem everywhere_type (t : TypeDecl) : (type t).Everywhere P := by
  intro d hd
  cases hd

end Value

end Annotations
