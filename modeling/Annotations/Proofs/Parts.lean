import Annotations.Value.Basic
import Mathlib.Logic.Relation

/-!
# The parts of values, types and annotations

What is written of a value is all that it consists of: the types in it with their default values,
the types of its constants, and the annotations in it with their types and values. These are its
parts (`Part`). A live annotation is a part that has no others: it consists of an object, and what
it would answer is not a part of it.

`Part.Throughout P` says that `P` holds of a part and of all the parts that it contains. It is
unfolded one level at a time (`Part.throughout_iff`), and since every part is finite, what holds
throughout can be taken up from the innermost parts (`Part.induction`, `Part.throughout_rec`).
-/

namespace Annotations

/-- A value that is no type, constant, annotation or array. -/
def Value.IsScalar : Value → Prop
  | type _ => False
  | constant _ => False
  | nested _ => False
  | array _ => False
  | _ => True

/-- What values, types and annotations consist of. -/
inductive Part where
  | value (v : Value)
  | type (t : TypeDecl)
  | stated (s : Stated)
  | live (l : Live)

namespace Part

/-- An annotation as a part. -/
def ofDescription : Description → Part
  | .stated s => stated s
  | .live l => live l

/-- The parts that a part consists of directly. -/
def children : Part → List Part
  | value (.type t) => [type t]
  | value (.constant (.stated t _)) => [type t]
  | value (.nested d) => [ofDescription d]
  | value (.array vs) => vs.map value
  | value _ => []
  | type t => (t.accessors.filterMap Accessor.default?).map value
  | stated s => type s.type :: s.values.map fun e ↦ value e.2
  | live _ => []

/-- The second part is the first one or one of its parts, at any depth. -/
def Contains : Part → Part → Prop :=
  Relation.ReflTransGen fun p q ↦ q ∈ p.children

/-- `P` holds of the part and of all the parts that it contains. -/
def Throughout (P : Part → Prop) (p : Part) : Prop :=
  ∀ q, p.Contains q → P q

/-- The part is no live annotation. -/
def NotLive : Part → Prop
  | live _ => False
  | _ => True

variable {P Q : Part → Prop} {p q : Part}

/-! ### What is contained -/

theorem contains_iff : p.Contains q ↔ p = q ∨ ∃ r ∈ p.children, r.Contains q :=
  Relation.ReflTransGen.cases_head_iff

theorem contains_of_mem_children (h : q ∈ p.children) : p.Contains q :=
  .single h

theorem Throughout.self (h : p.Throughout P) : P p :=
  h p .refl

theorem Throughout.mono (sub : ∀ p, P p → Q p) (h : p.Throughout P) : p.Throughout Q :=
  fun q hq ↦ sub q (h q hq)

/-- What holds throughout a part holds throughout the parts in it. -/
theorem Throughout.of_contains (h : p.Throughout P) (contains : p.Contains q) : q.Throughout P :=
  fun r hr ↦ h r (contains.trans hr)

theorem Throughout.child (h : p.Throughout P) (hq : q ∈ p.children) : q.Throughout P :=
  h.of_contains (contains_of_mem_children hq)

/-- **One level at a time**: the part itself, and those that it consists of. -/
theorem throughout_iff : p.Throughout P ↔ P p ∧ ∀ q ∈ p.children, q.Throughout P := by
  constructor
  · intro h
    exact ⟨h.self, fun q hq ↦ h.child hq⟩
  · rintro ⟨self, children⟩ q hq
    rcases contains_iff.1 hq with rfl | ⟨r, hr, hrq⟩
    · exact self
    · exact children r hr q hrq

/-! ### One level, for each form -/

theorem throughout_scalar_iff {v : Value} (scalar : v.IsScalar) :
    (value v).Throughout P ↔ P (value v) := by
  have none : (value v).children = [] := by cases v <;> first | rfl | exact scalar.elim
  rw [throughout_iff, none]
  simp

theorem throughout_typed_iff {t : TypeDecl} :
    (value (.type t)).Throughout P ↔ P (value (.type t)) ∧ (type t).Throughout P := by
  rw [throughout_iff]
  simp [children]

theorem throughout_constant_iff {t : TypeDecl} {n : String} :
    (value (.constant (.stated t n))).Throughout P ↔
      P (value (.constant (.stated t n))) ∧ (type t).Throughout P := by
  rw [throughout_iff]
  simp [children]

theorem throughout_liveConstant_iff {c : LiveConstant} :
    (value (.constant (.live c))).Throughout P ↔ P (value (.constant (.live c))) := by
  rw [throughout_iff]
  simp [children]

theorem throughout_nested_iff {s : Stated} :
    (value (.nested (.stated s))).Throughout P ↔
      P (value (.nested (.stated s))) ∧ (stated s).Throughout P := by
  rw [throughout_iff]
  simp [children, ofDescription]

theorem throughout_array_iff {vs : List Value} :
    (value (.array vs)).Throughout P ↔
      P (value (.array vs)) ∧ ∀ v ∈ vs, (value v).Throughout P := by
  rw [throughout_iff]
  simp [children]

theorem throughout_type_iff {t : TypeDecl} :
    (type t).Throughout P ↔
      P (type t) ∧ ∀ a ∈ t.accessors, ∀ v, a.default? = some v → (value v).Throughout P := by
  rw [throughout_iff]
  refine and_congr_right fun _ ↦ ⟨fun h a ha v hv ↦ ?_, fun h q hq ↦ ?_⟩
  · exact h (value v) (List.mem_map_of_mem (List.mem_filterMap.2 ⟨a, ha, hv⟩))
  · obtain ⟨v, hv, rfl⟩ := List.mem_map.1 hq
    obtain ⟨a, ha, default⟩ := List.mem_filterMap.1 hv
    exact h a ha v default

theorem throughout_stated_iff {s : Stated} :
    (stated s).Throughout P ↔ P (stated s) ∧ (type s.type).Throughout P ∧
      ∀ e ∈ s.values, (value e.2).Throughout P := by
  rw [throughout_iff]
  simp only [children, List.mem_cons, List.mem_map, forall_eq_or_imp, forall_exists_index, and_imp,
    forall_apply_eq_imp_iff₂]

theorem throughout_live_iff {l : Live} : (live l).Throughout P ↔ P (live l) := by
  rw [throughout_iff]
  simp [children]

/-! ### Induction -/

private theorem sizeOf_lt_of_default? {a : Accessor} {v : Value} (h : a.default? = some v) :
    sizeOf v < sizeOf a := by
  cases a with
  | stated owner name kind default =>
    cases (show default = some v from h)
    simp only [Accessor.stated.sizeOf_spec, Option.some.sizeOf_spec]
    omega
  | live m => cases h

private theorem sizeOf_lt_of_mem_values {s : Stated} {e : String × Value} (h : e ∈ s.values) :
    sizeOf e.2 < sizeOf s := by
  obtain ⟨t, values⟩ := s
  have entry := List.sizeOf_lt_of_mem h
  obtain ⟨name, v⟩ := e
  simp only [Prod.mk.sizeOf_spec, Stated.mk.sizeOf_spec] at entry ⊢
  omega

private theorem sizeOf_lt_of_mem_children_value {v : Value} (h : q ∈ (value v).children) :
    sizeOf q < sizeOf (value v) := by
  cases v with
  | type t =>
    obtain rfl := List.mem_singleton.1 h
    simp
  | constant c =>
    cases c with
    | stated t name =>
      obtain rfl := List.mem_singleton.1 h
      simp only [type.sizeOf_spec, value.sizeOf_spec, Value.constant.sizeOf_spec,
        Constant.stated.sizeOf_spec]
      omega
    | live c => cases h
  | nested d =>
    obtain rfl := List.mem_singleton.1 h
    cases d with
    | stated s =>
      simp only [ofDescription, stated.sizeOf_spec, value.sizeOf_spec, Value.nested.sizeOf_spec,
        Description.stated.sizeOf_spec]
      omega
    | live l =>
      simp only [ofDescription, live.sizeOf_spec, value.sizeOf_spec, Value.nested.sizeOf_spec,
        Description.live.sizeOf_spec]
      omega
  | array vs =>
    obtain ⟨v, hv, rfl⟩ := List.mem_map.1 h
    have element := List.sizeOf_lt_of_mem hv
    simp only [value.sizeOf_spec, Value.array.sizeOf_spec]
    omega
  | _ => cases h

private theorem sizeOf_lt_of_mem_children (h : q ∈ p.children) : sizeOf q < sizeOf p := by
  cases p with
  | value v => exact sizeOf_lt_of_mem_children_value h
  | type t =>
    obtain ⟨v, hv, rfl⟩ := List.mem_map.1 h
    obtain ⟨a, ha, hdefault⟩ := List.mem_filterMap.1 hv
    have default := sizeOf_lt_of_default? hdefault
    have accessor := List.sizeOf_lt_of_mem ha
    obtain ⟨name, sort, accessors, constants⟩ := t
    simp only [value.sizeOf_spec, type.sizeOf_spec, TypeDecl.mk.sizeOf_spec] at accessor ⊢
    omega
  | stated s =>
    rcases List.mem_cons.1 h with rfl | h
    · obtain ⟨t, values⟩ := s
      simp only [type.sizeOf_spec, stated.sizeOf_spec, Stated.mk.sizeOf_spec]
      omega
    · obtain ⟨e, he, rfl⟩ := List.mem_map.1 h
      have entry := sizeOf_lt_of_mem_values he
      simp only [value.sizeOf_spec, stated.sizeOf_spec]
      omega
  | live l => cases h

/-- **Induction over the parts**, from the innermost ones outwards. -/
@[elab_as_elim]
theorem induction {Q : Part → Prop} (step : ∀ p, (∀ q ∈ p.children, Q q) → Q p) (p : Part) :
    Q p := by
  induction p using (measure (sizeOf : Part → Nat)).wf.induction with
  | h p ih => exact step p fun q hq ↦ ih q (sizeOf_lt_of_mem_children hq)

private theorem throughout_induction {Q : (p : Part) → p.Throughout P → Prop}
    (step : ∀ p (h : p.Throughout P), (∀ q (hq : q ∈ p.children), Q q (h.child hq)) → Q p h)
    (p : Part) (h : p.Throughout P) : Q p h := by
  induction p using Part.induction with
  | step p ih => exact step p h fun q hq ↦ ih q hq (h.child hq)

/-- Induction over the parts throughout which `P` holds, with a case for each form. -/
@[elab_as_elim]
theorem throughout_rec {Q : (p : Part) → p.Throughout P → Prop}
    (scalar : ∀ v h, v.IsScalar → Q (.value v) h)
    (typed : ∀ t h h', Q (.type t) h' → Q (.value (.type t)) h)
    (constant : ∀ t n h h', Q (.type t) h' → Q (.value (.constant (.stated t n))) h)
    (liveConstant : ∀ c h, Q (.value (.constant (.live c))) h)
    (nested : ∀ s h h', Q (.stated s) h' → Q (.value (.nested (.stated s))) h)
    (liveNested : ∀ l h h', Q (.live l) h' → Q (.value (.nested (.live l))) h)
    (array : ∀ vs h, (∀ v ∈ vs, ∃ h', Q (.value v) h') → Q (.value (.array vs)) h)
    (type : ∀ t h, (∀ a ∈ t.accessors, ∀ v, a.default? = some v → ∃ h', Q (.value v) h') →
      Q (.type t) h)
    (stated : ∀ s h h', Q (.type s.type) h' → (∀ e ∈ s.values, ∃ h', Q (.value e.2) h') →
      Q (.stated s) h)
    (live : ∀ l h, Q (.live l) h) (p : Part) (h : p.Throughout P) : Q p h := by
  induction p, h using throughout_induction with
  | step p h ih =>
    cases p with
    | value v =>
      cases v with
      | type t => exact typed t h _ (ih (.type t) (List.mem_singleton.2 rfl))
      | constant c =>
        cases c with
        | stated t n => exact constant t n h _ (ih (.type t) (List.mem_singleton.2 rfl))
        | live c => exact liveConstant c h
      | nested d =>
        cases d with
        | stated s => exact nested s h _ (ih (.stated s) (List.mem_singleton.2 rfl))
        | live l => exact liveNested l h _ (ih (.live l) (List.mem_singleton.2 rfl))
      | array vs => exact array vs h fun v hv ↦ ⟨_, ih (.value v) (List.mem_map_of_mem hv)⟩
      | _ => exact scalar _ h trivial
    | type t =>
      refine type t h fun a ha v hv ↦ ⟨_, ih (.value v) ?_⟩
      exact List.mem_map_of_mem (List.mem_filterMap.2 ⟨a, ha, hv⟩)
    | stated s =>
      refine stated s h _ (ih (.type s.type) List.mem_cons_self) fun e he ↦ ⟨_, ih (.value e.2) ?_⟩
      exact List.mem_cons_of_mem _ (List.mem_map_of_mem he)
    | live l => exact live l h

end Part

end Annotations
