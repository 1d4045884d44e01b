import Annotations.Proofs.Places
import Annotations.Proofs.Snapshot

/-!
# Equality in either order and along chains

A comparison treats its sides differently: it goes through the accessors of the left one, asks both
by the handles of the left one, and stops at the first difference or failure. Within a registry the
outcome `true` does not show this: it means that the two report the same, which is symmetric
(`SameWithin.symm`) and transitive (`SameWithin.trans`).

The outcome `false` may show it. If the right side lists its accessors in another order, the swapped
comparison may meet a failure before the difference. If both sides list them in the same order
(`Value.SameOrder`), the swapped comparison makes the same readings, each with the sides exchanged,
and an answer is the same (`equalWithin_swap`).
-/

namespace Annotations

namespace Description

/-! ### Along chains -/

theorem SameWithin.trans {room : Nat} {d e f : Description} (h : SameWithin room d e)
    (k : SameWithin room e f) : SameWithin room d f := by
  induction room generalizing d e f with
  | zero => exact h
  | succ room ih =>
    obtain ⟨name, perm, values⟩ := h
    obtain ⟨name', perm', values'⟩ := k
    refine ⟨name.trans name', perm.trans perm', fun n hn ↦ ?_⟩
    obtain ⟨x, y, hx, hy, alike⟩ := values n hn
    obtain ⟨y', z, hy', hz, alike'⟩ := values' n (perm.mem_iff.1 hn)
    cases hy.symm.trans hy'
    refine ⟨x, z, hx, hz, (alike.trans alike').mono ?_⟩
    rintro p r ⟨q, hpq, hqr⟩
    exact ih hpq hqr

end Description

/-! ### Comparable types -/

/-- Types with distinct accessors that are their own are comparable in either order. -/
theorem Registry.Orderly.comparable_comm {w : Registry} {d e : Description} (hd : w.Orderly d)
    (he : w.Orderly e) : d.type.comparable e.type = e.type.comparable d.type := by
  rw [Bool.eq_iff_iff, TypeDecl.comparable_iff hd.admits.type.owned hd.distinct,
    TypeDecl.comparable_iff he.admits.type.owned he.distinct]
  constructor
  · rintro ⟨name, perm⟩
    exact ⟨name.symm, perm.symm⟩
  · rintro ⟨name, perm⟩
    exact ⟨name.symm, perm.symm⟩

/-! ### Types that list their accessors in the same order -/

namespace Value

/-- Wherever annotations of comparable types stand at the same place of the two values, these types
list their accessors in the same order. -/
def SameOrder (x y : Value) : Prop :=
  ∀ p d e, Leads x y p (.nested d) (.nested e) → d.type.comparable e.type = true →
    d.type.accessorNames = e.type.accessorNames

theorem SameOrder.step {i : Nat} {x y u v : Value} (h : SameOrder x y) (step : Step i x y u v) :
    SameOrder u v :=
  fun p d e leads ↦ h (i :: p) d e (.step step leads)

/-- An answer to the comparison is the answer to the swapped one. -/
def Swaps {α : Type} (f : α → α → Eval Bool) (x y : α) : Prop :=
  ∀ b, (f x y).result = .ok b → (f y x).result = .ok b

variable {f : Description → Description → Eval Bool}

private theorem allEqualBy_swap {xs ys : List Value}
    (h : ∀ x y, (x, y) ∈ xs.zip ys → Swaps (equalBy f) x y) : Swaps (allEqualBy f) xs ys := by
  induction xs generalizing ys with
  | nil =>
    intro b hb
    cases ys <;> simpa [allEqualBy] using hb
  | cons x xs ih =>
    cases ys with
    | nil =>
      intro b hb
      simpa [allEqualBy] using hb
    | cons y ys =>
      intro b hb
      rw [allEqualBy] at hb ⊢
      obtain ⟨c, first, rest⟩ := Eval.result_bind_eq_ok.1 hb
      rw [Eval.result_bind_of_eq_ok (h x y (by simp) c first)]
      cases c with
      | false => exact rest
      | true => exact ih (fun u v huv ↦ h u v (by simp [huv])) b rest

/-- Values that list their accessors in the same order may be swapped as far as the annotations in
them may. -/
theorem equalBy_swap {w : Registry}
    (inner : ∀ d e, d.Everywhere w.Orderly → e.Everywhere w.Orderly →
      SameOrder (.nested d) (.nested e) → Swaps f d e)
    {x y : Value} (hx : x.Everywhere w.Orderly) (hy : y.Everywhere w.Orderly)
    (order : SameOrder x y) : Swaps (equalBy f) x y := by
  induction x using array_induction generalizing y with
  | other x hx' =>
    intro b hb
    cases x with
    | nested d =>
      cases y with
      | nested e =>
        exact inner d e (everywhere_nested_iff.1 hx) (everywhere_nested_iff.1 hy) order b hb
      | _ => exact hb
    | array xs => exact absurd rfl (hx' xs)
    | _ =>
      -- Between other values the comparison is a test for equality, of bits or of names.
      cases y <;> first | exact hb | simpa [equalBy, Constant.same, eq_comm, BEq.comm] using hb
  | array xs ih =>
    intro b hb
    cases y with
    | array ys =>
      rw [equalBy] at hb ⊢
      by_cases length : xs.length = ys.length
      · rw [if_pos length] at hb
        rw [if_pos length.symm]
        refine allEqualBy_swap (fun u v huv ↦ ?_) b hb
        obtain ⟨hu, hv⟩ := List.of_mem_zip huv
        obtain ⟨i, step⟩ := exists_step_of_mem_zip huv
        exact ih u hu (everywhere_array_iff.1 hx u hu) (everywhere_array_iff.1 hy v hv)
          (order.step step)
      · rw [if_neg length] at hb
        rw [if_neg fun h ↦ length h.symm]
        exact hb
    | _ => exact hb

end Value

namespace Description

open Value (SameOrder Swaps)

variable {w : Registry} {limit : Nat}

/-- The two accessors ask the two annotations for the same, and what is answered may be swapped. -/
private theorem agreeOn_swap {eqv : Value → Value → Eval Bool} {l r : Description}
    {as bs : List Accessor}
    (h : List.Forall₂ (fun a b ↦ l.get a.handle = l.get b.handle ∧ r.get a.handle = r.get b.handle ∧
      ∀ x y, (l.get a.handle).result = .ok x → (r.get a.handle).result = .ok y → Swaps eqv x y)
      as bs) (c : Bool) (hc : (agreeOn eqv l r as).result = .ok c) :
    (agreeOn eqv r l bs).result = .ok c := by
  induction h with
  | nil => exact hc
  | cons same _ ih =>
    obtain ⟨left, right, swaps⟩ := same
    rw [agreeOn] at hc ⊢
    obtain ⟨x, hx, hc⟩ := Eval.result_bind_eq_ok.1 hc
    obtain ⟨y, hy, hc⟩ := Eval.result_bind_eq_ok.1 hc
    obtain ⟨b, hb, hc⟩ := Eval.result_bind_eq_ok.1 hc
    rw [← left, ← right, Eval.result_bind_of_eq_ok hy, Eval.result_bind_of_eq_ok hx,
      Eval.result_bind_of_eq_ok (swaps x y hx hy b hb)]
    cases b with
    | false => exact hc
    | true => exact ih hc

/-- **Where both sides list their accessors in the same order, an answer does not depend on which
side is the left one.** -/
theorem equalWithin_swap {room : Nat} {l r : Description} (hl : l.Everywhere w.Orderly)
    (hr : r.Everywhere w.Orderly) (order : SameOrder (.nested l) (.nested r)) :
    Swaps (equalWithin limit room) l r := by
  induction room generalizing l r with
  | zero =>
    intro c hc
    cases hc
  | succ room ih =>
    intro c hc
    rw [equalWithin] at hc ⊢
    rw [hr.self.comparable_comm hl.self]
    by_cases comparable : l.type.comparable r.type = true
    · rw [if_pos comparable] at hc ⊢
      refine agreeOn_swap ?_ c hc
      -- The names are the same one by one, and each annotation answers by them.
      have names : List.Forall₂ (fun a b : Accessor ↦ a.name = b.name) l.type.accessors
          r.type.accessors := by
        have := order [] l r (.here _ _) comparable
        rwa [TypeDecl.accessorNames, TypeDecl.accessorNames, ← List.forall₂_eq_eq_eq,
          List.forall₂_map_left_iff, List.forall₂_map_right_iff] at this
      have back : r.type.comparable l.type = true := hr.self.comparable_comm hl.self ▸ comparable
      refine List.forall₂_iff_zip.2 ⟨names.length_eq, fun {a b} hab ↦ ?_⟩
      obtain ⟨ha, hb⟩ := List.of_mem_zip hab
      have name : a.name = b.name := (List.forall₂_iff_zip.1 names).2 hab
      obtain ⟨left, right⟩ :=
        get_eq_named_of_comparable hl.self.admits hr.self.admits comparable ha
      obtain ⟨right', left'⟩ := get_eq_named_of_comparable hr.self.admits hl.self.admits back hb
      refine ⟨by rw [left, left', name], by rw [right, right', name], fun x y hx hy ↦ ?_⟩
      obtain ⟨i, step⟩ := Value.exists_step_of_mem ha hx hy
      rw [right] at hy
      exact Value.equalBy_swap (fun d e hd he order ↦ ih hd he order) (hl.value ⟨a, ha, hx⟩)
        (hr.value (reports_of_named hy)) (order.step step)
    · rw [if_neg comparable] at hc ⊢
      exact hc

end Description

namespace Registry

variable {w : Registry}

/-- **Equality is symmetric and transitive.** For annotations in any mixture of stated and live ones
within a registry, and under every limit:

* annotations that are equal are equal in the other order;
* annotations that are equal to the same one are equal;
* annotations that are found different are found different in the other order, if the types on both
  sides list their accessors in the same order at every level. -/
theorem equal_symm_trans (w : Registry) (limit : Nat) :
    (∀ a b : Description, a.Everywhere w.Orderly → b.Everywhere w.Orderly →
      (a.equal limit b).result = .ok true → (b.equal limit a).result = .ok true) ∧
    (∀ a b c : Description, a.Everywhere w.Orderly → b.Everywhere w.Orderly →
      c.Everywhere w.Orderly → (a.equal limit b).result = .ok true →
      (b.equal limit c).result = .ok true → (a.equal limit c).result = .ok true) ∧
    ∀ a b : Description, a.Everywhere w.Orderly → b.Everywhere w.Orderly →
      Value.SameOrder (.nested a) (.nested b) →
      (a.equal limit b).result = .ok false → (b.equal limit a).result = .ok false := by
  refine ⟨fun a b ha hb ab ↦ ?_, fun a b c ha hb hc ab bc ↦ ?_, fun a b ha hb order ab ↦ ?_⟩
  · have same := (Description.equalWithin_iff_sameWithin ha hb).1 ab
    exact (Description.equalWithin_iff_sameWithin hb ha).2 same.symm
  · have first := (Description.equalWithin_iff_sameWithin ha hb).1 ab
    have second := (Description.equalWithin_iff_sameWithin hb hc).1 bc
    exact (Description.equalWithin_iff_sameWithin ha hc).2 (first.trans second)
  · exact Description.equalWithin_swap ha hb order false ab

theorem everywhere_detachedPair : (Description.stated detachedPair).Everywhere pairs.Orderly := by
  have marker : (Description.stated ⟨Marker.liveType.describe, [("value", .int 7)]⟩).Everywhere
      pairs.Orderly :=
    Description.everywhere_of_values [.int 7]
      ⟨everywhere_liveMarker.self.admits.type, by decide⟩ rfl (by simp)
  exact Description.everywhere_of_values
    [.int 3, .nested (.stated ⟨Marker.liveType.describe, [("value", .int 7)]⟩)]
    ⟨everywhere_livePair.self.admits.type, by decide⟩ rfl (by simp [marker])

/-- A marker that holds another number. -/
def statedMarker8 : Description :=
  .stated ⟨.ofDrafts "com.example.Marker" [⟨"value", .int, none⟩], [("value", .int 8)]⟩

theorem everywhere_statedMarker8 : statedMarker8.Everywhere pairs.Orderly :=
  Description.everywhere_of_values [.int 8] ⟨admits_ofDrafts .., by decide⟩ rfl (by simp)

/-- Markers have one accessor. -/
theorem sameOrder_markers :
    Value.SameOrder (.nested (.ofInstance (.marker ⟨7⟩))) (.nested statedMarker8) := by
  intro p d e leads _
  cases leads with
  | here => rfl
  | step first rest =>
    -- There are only numbers behind the accessor.
    rcases first with ⟨own, left, -⟩ | _
    obtain rfl := List.mem_singleton.1 (List.mem_of_getElem? own)
    cases left
    rcases rest with _ | ⟨⟨⟩, -⟩

/-- The live pair, the stated one with its accessors in another order, and the detached one are
equal, and two markers that differ do so in either order. -/
theorem equal_symm_trans_pair :
    (livePair.equal 64 statedPair).result = .ok true ∧
    (statedPair.equal 64 livePair).result = .ok true ∧
    (statedPair.equal 64 (.stated detachedPair)).result = .ok true ∧
    (livePair.equal 64 (.stated detachedPair)).result = .ok true ∧
    ((Description.ofInstance (.marker ⟨7⟩)).equal 64 statedMarker8).result = .ok false ∧
    (statedMarker8.equal 64 (.ofInstance (.marker ⟨7⟩))).result = .ok false := by
  obtain ⟨symm, trans, swap⟩ := equal_symm_trans pairs 64
  have first : (livePair.equal 64 statedPair).result = .ok true := rfl
  have second : (statedPair.equal 64 (.stated detachedPair)).result = .ok true := rfl
  have different : ((Description.ofInstance (.marker ⟨7⟩)).equal 64 statedMarker8).result =
    .ok false := rfl
  exact ⟨first, symm _ _ everywhere_livePair everywhere_statedPair first, second,
    trans _ _ _ everywhere_livePair everywhere_statedPair everywhere_detachedPair first second,
    different,
    swap _ _ everywhere_liveMarker everywhere_statedMarker8 sameOrder_markers different⟩

end Registry

end Annotations
