import Annotations.Proofs.Domain
import Annotations.Proofs.Places

/-!
# Settled annotations

A stated annotation is **settled** if its type owns its accessors and it has one value for each of
their names (`Description.Settled`). Then each accessor is answered without anything being done, and
whatever is answered to a handle, whoever the handle is from, is what an accessor of the annotation
itself reports (`Settled.reports_of_get`). So two values in which everything is settled can be walked
through side by side, and everything that is met is settled again (`Value.Leads.settled`).

**Whatever is detached is settled all through** (`everywhere_settled_of_detachWithin`). Nothing is
asked of the original: that its accessors are its own comes from their having been answered.
-/

namespace Annotations

namespace Description

/-- The annotation is stated; the accessors of its type are its own, and it has one value for each
of their names. -/
def Settled : Description → Prop
  | stated s => s.type.Owned ∧ s.Arranged
  | live _ => False

variable {d : Description} {v : Value}

namespace Settled

/-- The annotation of a settled description. -/
theorem exists_stated (h : d.Settled) : ∃ s, d = .stated s ∧ s.type.Owned ∧ s.Arranged := by
  cases d with
  | stated s => exact ⟨s, rfl, h⟩
  | live l => exact h.elim

theorem owned (h : d.Settled) : d.type.Owned := by
  obtain ⟨s, rfl, owned, -⟩ := h.exists_stated
  exact owned

/-- **Each declared accessor is answered**, whoever the handle is from, and nothing is done. -/
theorem get_of_declares (h : d.Settled) {g : Handle} (declared : d.type.declares g = true) :
    ∃ v, d.get g = pure v := by
  obtain ⟨s, rfl, -, arranged⟩ := h.exists_stated
  obtain ⟨v, -, hv⟩ := arranged.get_of_declares declared
  exact ⟨v, by rw [get_stated, hv]; rfl⟩

/-- So each accessor of the annotation is. -/
theorem get (h : d.Settled) {a : Accessor} (ha : a ∈ d.type.accessors) :
    ∃ v, d.get a.handle = pure v :=
  h.get_of_declares (TypeDecl.declares_of_mem h.owned ha)

/-- Whatever is answered is reported under an accessor. -/
theorem reports_of_get (h : d.Settled) {g : Handle} (read : (d.get g).result = .ok v) :
    d.Reports v := by
  obtain ⟨s, rfl, owned, -⟩ := h.exists_stated
  obtain ⟨declared, found⟩ := Stated.get_eq_ok_iff.1 read
  obtain ⟨a, ha, name⟩ := List.mem_map.1 (TypeDecl.declares_iff.1 declared).2
  have found : s.values.lookup a.handle.name = some v := by
    rw [Accessor.name_handle, name]
    exact found
  exact ⟨a, ha, Stated.get_eq_ok_iff.2 ⟨TypeDecl.declares_of_mem owned ha, found⟩⟩

/-- The values of a settled annotation are what it reports. -/
theorem reports_of_mem {s : Stated} (h : (stated s).Settled) {e : String × Value}
    (he : e ∈ s.values) : (stated s).Reports e.2 := by
  obtain ⟨owned, arranged⟩ := h
  obtain ⟨a, ha, name⟩ := List.mem_map.1 (arranged.mem_names_iff.1 (List.mem_map_of_mem he))
  exact ⟨a, ha, arranged.get_of_mem owned ha he name⟩

end Settled

/-! ### Detached annotations -/

/-- An annotation that answers an accessor with a value has it as its own. -/
private theorem owner_of_get {g : Handle} (read : (d.get g).result = .ok v) :
    g.owner = d.type.name := by
  cases d with
  | stated s => exact (TypeDecl.declares_iff.1 (Stated.get_eq_ok_iff.1 read).1).1
  | live l =>
    rw [get_live, Live.get] at read
    split at read
    · next owner => exact owner
    · cases read

private theorem forall_get_of_detachOn {f : Value → Eval Value} {as : List Accessor}
    {es : List (String × Value)} (h : (detachOn f d as).result = .ok es) :
    ∀ a ∈ as, ∃ v, (d.get a.handle).result = .ok v := by
  induction as generalizing es with
  | nil => simp
  | cons a as ih =>
    obtain ⟨v, hv, h⟩ := Eval.result_bind_eq_ok.1 h
    obtain ⟨u, -, h⟩ := Eval.result_bind_eq_ok.1 h
    obtain ⟨rest, hrest, -⟩ := Eval.result_bind_eq_ok.1 h
    exact List.forall_mem_cons.2 ⟨⟨v, hv⟩, ih hrest⟩

variable {limit room : Nat} {s : Stated}

/-- What is detached is settled: all of its accessors have been answered. -/
theorem settled_of_detachWithin (h : (detachWithin limit (room + 1) d).result = .ok s) :
    (stated s).Settled := by
  refine ⟨fun a ha ↦ ?_, arranged_of_detachWithin h⟩
  have type := (of_detachWithin h).1
  obtain ⟨es, hes, -⟩ := Eval.result_bind_eq_ok.1 h
  obtain ⟨v, hv⟩ := forall_get_of_detachOn hes a (type ▸ ha)
  rw [type]
  exact owner_of_get hv

/-- What a detached annotation reports is a detached value. -/
theorem detachBy_of_reports (h : (detachWithin limit (room + 1) d).result = .ok s)
    (reports : (stated s).Reports v) :
    ∃ u, d.Reports u ∧ (Value.detachBy (detachWithin limit room) u).result = .ok v := by
  obtain ⟨type, values⟩ := of_detachWithin h
  obtain ⟨a, ha, read⟩ := reports
  obtain ⟨-, found⟩ := Stated.get_eq_ok_iff.1 read
  have ha : a ∈ d.type.accessors := type ▸ ha
  obtain ⟨w, hw, b, hb, -, u, hu, detached⟩ := values a.name (List.mem_map_of_mem ha)
  cases found.symm.trans hw
  exact ⟨u, ⟨b, hb, hu⟩, detached⟩

end Description

namespace Value

/-- Each annotation in the right one of two alike values is related to one in the left value. -/
theorem Alike.exists_left {R : Description → Description → Prop} {v w : Value} (h : Alike R v w)
    {e : Description} (he : w.Holds e) : ∃ d, v.Holds d ∧ R d e := by
  induction h with
  | nested related =>
    cases he
    exact ⟨_, .nested _, related⟩
  | @array vs ws length _ ih =>
    obtain ⟨w, hw, he⟩ := holds_array_iff.1 he
    obtain ⟨i, hi⟩ := List.mem_iff_getElem?.1 hw
    have short : i < vs.length := length ▸ (List.getElem?_eq_some_iff.1 hi).1
    have pair : (vs[i], w) ∈ vs.zip ws := List.mem_of_getElem?
      (List.getElem?_zip_eq_some.2 ⟨List.getElem?_eq_getElem short, hi⟩)
    obtain ⟨d, hd, related⟩ := ih _ _ pair he
    exact ⟨d, .array (List.of_mem_zip pair).1 hd, related⟩
  | _ => cases he

/-- The annotations in a detached value are detached ones. -/
theorem exists_of_holds_detachBy {f : Description → Eval Stated} {v w : Value}
    (h : (detachBy f v).result = .ok w) {e : Description} (he : w.Holds e) :
    ∃ d s, v.Holds d ∧ (f d).result = .ok s ∧ e = .stated s := by
  obtain ⟨d, hd, s, hs, rfl⟩ := (alike_of_detachBy h).exists_left he
  exact ⟨d, s, hd, hs, rfl⟩

end Value

/-- **What is detached is settled all through.** -/
theorem Description.everywhere_settled_of_detachWithin {d : Description} {limit room : Nat}
    {s : Stated} (h : (detachWithin limit room d).result = .ok s) :
    (stated s).Everywhere Settled := by
  induction room generalizing d s with
  | zero => cases h
  | succ room ih =>
    refine everywhere_iff.2 ⟨settled_of_detachWithin h, fun v reports e he ↦ ?_⟩
    obtain ⟨u, -, detached⟩ := detachBy_of_reports h reports
    obtain ⟨d, t, -, ht, rfl⟩ := Value.exists_of_holds_detachBy detached he
    exact ih ht

/-! ### Settled values side by side -/

namespace Value

variable {x y u w : Value} {i : Nat} {p : Place}

/-- A step from settled values leads to settled values: what the right side answers to a handle of
the left side is its own. -/
theorem Step.settled (step : Step i x y u w) (hx : x.Everywhere Description.Settled)
    (hy : y.Everywhere Description.Settled) :
    u.Everywhere Description.Settled ∧ w.Everywhere Description.Settled := by
  cases step with
  | accessor own left right =>
    have hl := everywhere_nested_iff.1 hx
    have hr := everywhere_nested_iff.1 hy
    exact ⟨hl.value ⟨_, List.mem_of_getElem? own, left⟩, hr.value (hr.self.reports_of_get right)⟩
  | element left right =>
    exact ⟨everywhere_array_iff.1 hx _ (List.mem_of_getElem? left),
      everywhere_array_iff.1 hy _ (List.mem_of_getElem? right)⟩

theorem Leads.settled (leads : Leads x y p u w) (hx : x.Everywhere Description.Settled)
    (hy : y.Everywhere Description.Settled) :
    u.Everywhere Description.Settled ∧ w.Everywhere Description.Settled := by
  induction leads with
  | here => exact ⟨hx, hy⟩
  | step first _ ih =>
    obtain ⟨hu, hw⟩ := first.settled hx hy
    exact ih hu hw

end Value

end Annotations
