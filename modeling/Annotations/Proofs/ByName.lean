import Annotations.Proofs.Registry
import Mathlib.Data.List.Perm.Subperm

/-!
# Annotations that report the same

A comparison goes through the accessors of its left side, and asks both sides by the handles of the
left one. What it is meant to find out makes no use of handles and does not tell the sides apart:
two annotations report the same within a number of levels (`Description.SameWithin`) if their types
have the same name and the same accessors, in whatever order, and under each name both report a
value, and these values are alike in annotations that report the same within one level less.

* A comparison is inverted one level at a time, with the handles that it uses
  (`equalWithin_succ_iff`).
* Within a registry the handles make no difference, and a comparison succeeds exactly on annotations
  that report the same (`equalWithin_iff_sameWithin`). So it does not matter which side is the left
  one (`equalWithin_comm`).
-/

namespace Annotations

namespace TypeDecl

variable {t u : TypeDecl}

/-- Types of the same name are comparable when they have the same accessors, in whatever order. -/
theorem comparable_of_perm (owned : t.Owned) (name : t.name = u.name)
    (perm : t.accessorNames.Perm u.accessorNames) : t.comparable u = true := by
  simp only [comparable, sameAccessors, Bool.and_eq_true, beq_iff_eq, List.all_eq_true]
  have length : t.accessors.length = u.accessors.length := by
    have := perm.length_eq
    rwa [accessorNames, accessorNames, List.length_map, List.length_map] at this
  refine ⟨name, length, fun a ha ↦ declares_iff.2 ⟨(owned a ha).trans name, ?_⟩⟩
  exact perm.mem_iff.1 (List.mem_map_of_mem ha)

/-- With distinct accessors, types are comparable when they have the same name and the same
accessors, in whatever order. -/
theorem comparable_iff (owned : t.Owned) (distinct : t.accessorNames.Nodup) :
    t.comparable u = true ↔ t.name = u.name ∧ t.accessorNames.Perm u.accessorNames := by
  constructor
  · simp only [comparable, sameAccessors, Bool.and_eq_true, beq_iff_eq, List.all_eq_true]
    rintro ⟨name, length, declared⟩
    have sub : t.accessorNames ⊆ u.accessorNames := by
      intro n hn
      obtain ⟨a, ha, rfl⟩ := List.mem_map.1 hn
      exact (declares_iff.1 (declared a ha)).2
    have short : u.accessorNames.length ≤ t.accessorNames.length := by
      rw [accessorNames, accessorNames, List.length_map, List.length_map]
      omega
    exact ⟨name, (distinct.subperm sub).perm_of_length_le short⟩
  · rintro ⟨name, perm⟩
    exact comparable_of_perm owned name perm

/-- A type that owns its accessors is comparable with itself. -/
theorem comparable_self (owned : t.Owned) : t.comparable t = true :=
  comparable_of_perm owned rfl (.refl _)

/-- The accessors of comparable types are declared by either of them. -/
theorem declares_of_comparable (h : t.comparable u = true) {a : Accessor} (ha : a ∈ t.accessors) :
    u.declares a.handle = true := by
  simp only [comparable, sameAccessors, Bool.and_eq_true, List.all_eq_true] at h
  exact h.2.2 a ha

end TypeDecl

namespace Description

/-! ### Comparisons one level at a time -/

theorem agreeOn_eq_true_iff {eqv : Value → Value → Eval Bool} {l r : Description}
    {as : List Accessor} :
    (agreeOn eqv l r as).result = .ok true ↔
      ∀ a ∈ as, ∃ x y, (l.get a.handle).result = .ok x ∧ (r.get a.handle).result = .ok y ∧
        (eqv x y).result = .ok true := by
  induction as with
  | nil => simp [agreeOn]
  | cons a as ih =>
    rw [List.forall_mem_cons, ← ih, agreeOn]
    constructor
    · intro h
      obtain ⟨x, hx, h⟩ := Eval.result_bind_eq_ok.1 h
      obtain ⟨y, hy, h⟩ := Eval.result_bind_eq_ok.1 h
      obtain ⟨_ | _, heq, h⟩ := Eval.result_bind_eq_ok.1 h
      · simp at h
      · exact ⟨⟨x, y, hx, hy, heq⟩, h⟩
    · rintro ⟨⟨x, y, hx, hy, heq⟩, h⟩
      rw [Eval.result_bind_of_eq_ok hx, Eval.result_bind_of_eq_ok hy, Eval.result_bind_of_eq_ok heq]
      exact h

/-- A comparison that may enter a level succeeds when the types are comparable and each accessor of
the left side is answered with equal values on both sides. -/
theorem equalWithin_succ_iff {limit room : Nat} {l r : Description} :
    (equalWithin limit (room + 1) l r).result = .ok true ↔
      l.type.comparable r.type = true ∧
        ∀ a ∈ l.type.accessors, ∃ x y, (l.get a.handle).result = .ok x ∧
          (r.get a.handle).result = .ok y ∧
          (Value.equalBy (equalWithin limit room) x y).result = .ok true := by
  rw [equalWithin]
  by_cases h : l.type.comparable r.type = true
  · rw [if_pos h, agreeOn_eq_true_iff]
    exact (and_iff_right h).symm
  · simp [h]

/-! ### Reporting the same -/

/-- The two annotations report the same, and so do the annotations in their values, within a number
of levels. -/
def SameWithin : (room : Nat) → Description → Description → Prop
  | 0, _, _ => False
  | room + 1, d, e =>
    d.typeName = e.typeName ∧ d.type.accessorNames.Perm e.type.accessorNames ∧
      ∀ n ∈ d.type.accessorNames, ∃ x y, (d.named n).result = .ok x ∧ (e.named n).result = .ok y ∧
        Value.Alike (SameWithin room) x y

theorem SameWithin.symm {room : Nat} {d e : Description} (h : SameWithin room d e) :
    SameWithin room e d := by
  induction room generalizing d e with
  | zero => exact h
  | succ room ih =>
    obtain ⟨name, perm, values⟩ := h
    refine ⟨name.symm, perm.symm, fun n hn ↦ ?_⟩
    obtain ⟨x, y, hx, hy, alike⟩ := values n (perm.mem_iff.2 hn)
    exact ⟨y, x, hy, hx, alike.symm.mono fun _ _ ↦ ih⟩

section Registry

variable {w : Registry} {limit : Nat}

/-- In a registry, both sides of a comparable pair answer the handles of the left one as under their
names. -/
theorem get_eq_named_of_comparable {l r : Description} (hl : w.Admits l) (hr : w.Admits r)
    (comparable : l.type.comparable r.type = true) {a : Accessor} (ha : a ∈ l.type.accessors) :
    l.get a.handle = l.named a.name ∧ r.get a.handle = r.named a.name :=
  ⟨hl.proper.get_own ha,
    hr.get_eq_named (hl.type.knows a ha) (TypeDecl.declares_of_comparable comparable ha)⟩

/-- **Within a registry a comparison finds out who reports the same.** -/
theorem equalWithin_iff_sameWithin {room : Nat} {l r : Description} (hl : l.Everywhere w.Orderly)
    (hr : r.Everywhere w.Orderly) :
    (equalWithin limit room l r).result = .ok true ↔ SameWithin room l r := by
  induction room generalizing l r with
  | zero => simp [equalWithin, SameWithin]
  | succ room ih =>
    -- Only what the two sides report is compared, and in that nothing is out of order.
    have inside : ∀ {x y : Value}, l.Reports x → r.Reports y →
        ((Value.equalBy (equalWithin limit room) x y).result = .ok true ↔
          Value.Alike (SameWithin room) x y) := by
      intro x y hx hy
      rw [Value.equalBy_eq_true_iff]
      exact Value.Alike.congr fun d e hd he ↦ ih (hl.value hx d hd) (hr.value hy e he)
    have comparable_iff :=
      TypeDecl.comparable_iff (u := r.type) hl.self.admits.type.owned hl.self.distinct
    rw [equalWithin_succ_iff, SameWithin]
    constructor
    · rintro ⟨comparable, values⟩
      obtain ⟨name, perm⟩ := comparable_iff.1 comparable
      refine ⟨name, perm, fun n hn ↦ ?_⟩
      obtain ⟨a, ha, rfl⟩ := List.mem_map.1 hn
      obtain ⟨left, right⟩ :=
        get_eq_named_of_comparable hl.self.admits hr.self.admits comparable ha
      obtain ⟨x, y, hx, hy, heq⟩ := values a ha
      rw [left] at hx
      rw [right] at hy
      exact ⟨x, y, hx, hy, (inside (reports_of_named hx) (reports_of_named hy)).1 heq⟩
    · rintro ⟨name, perm, values⟩
      have comparable := comparable_iff.2 ⟨name, perm⟩
      refine ⟨comparable, fun a ha ↦ ?_⟩
      obtain ⟨left, right⟩ :=
        get_eq_named_of_comparable hl.self.admits hr.self.admits comparable ha
      obtain ⟨x, y, hx, hy, alike⟩ := values a.name (List.mem_map_of_mem ha)
      rw [left, right]
      exact ⟨x, y, hx, hy, (inside (reports_of_named hx) (reports_of_named hy)).2 alike⟩

end Registry

end Description

namespace Value

variable {w : Registry} {limit room : Nat} {x y : Value}

/-- Within a registry values are equal when they are alike in annotations that report the same. -/
theorem equalBy_iff_sameWithin (hx : x.Everywhere w.Orderly) (hy : y.Everywhere w.Orderly) :
    (equalBy (Description.equalWithin limit room) x y).result = .ok true ↔
      Alike (Description.SameWithin room) x y := by
  rw [equalBy_eq_true_iff]
  exact Alike.congr fun d e hd he ↦ Description.equalWithin_iff_sameWithin (hx d hd) (hy e he)

/-- Within a registry it does not matter which value is the left one. -/
theorem equalBy_comm (hx : x.Everywhere w.Orderly) (hy : y.Everywhere w.Orderly) :
    (equalBy (Description.equalWithin limit room) x y).result = .ok true ↔
      (equalBy (Description.equalWithin limit room) y x).result = .ok true := by
  rw [equalBy_iff_sameWithin hx hy, equalBy_iff_sameWithin hy hx]
  constructor
  · intro alike
    exact alike.symm.mono fun _ _ ↦ Description.SameWithin.symm
  · intro alike
    exact alike.symm.mono fun _ _ ↦ Description.SameWithin.symm

end Value

end Annotations
