import Annotations.Proofs.Independent

/-!
# Normal forms

Detaching an annotation brings it into a normal form: it is settled all through, and nothing live
**occurs** in its values, neither a live annotation nor a live constant, however deep it may be in
arrays and in the values of annotations inside (`Stated.Normal`). Types are left out: what they
declare is kept as it is.

* One step of detaching takes values to values in which nothing live occurs, if that is so for the
  annotations inside (`Value.inert_of_detachBy`); hence whatever is detached is normal
  (`Stated.normal_of_detachWithin`).
* A normal annotation is its own detached form, under all limits from some number on
  (`Stated.Normal.exists_room`). Under the other limits the limit is reported.

So the normal forms are exactly what detaching gives (`Stated.normal_iff`).
-/

namespace Annotations

/-! ### What occurs in a value -/

namespace Value

/-- The value is a live annotation or a live constant. -/
def IsLive : Value → Prop
  | nested (.live _) => True
  | constant (.live _) => True
  | _ => False

/-- The first value is the second one, or occurs in it: in an element of an array, or in a value of
a stated annotation. -/
inductive Occurs (w : Value) : Value → Prop
  | self : Occurs w w
  | element {vs : List Value} {v : Value} (mem : v ∈ vs) (inside : Occurs w v) :
    Occurs w (.array vs)
  | entry {s : Stated} {e : String × Value} (mem : e ∈ s.values) (inside : Occurs w e.2) :
    Occurs w (.nested (.stated s))

/-- Nothing live occurs in the value. -/
def Inert (v : Value) : Prop :=
  ∀ w, Occurs w v → ¬w.IsLive

theorem inert_array_iff {vs : List Value} : (array vs).Inert ↔ ∀ v ∈ vs, v.Inert := by
  constructor
  · exact fun h v hv w inside ↦ h w (.element hv inside)
  · intro h w inside
    cases inside with
    | self => exact id
    | element mem inside => exact h _ mem w inside

theorem inert_stated_iff {s : Stated} :
    (nested (.stated s)).Inert ↔ ∀ e ∈ s.values, e.2.Inert := by
  constructor
  · exact fun h e he w inside ↦ h w (.entry he inside)
  · intro h w inside
    cases inside with
    | self => exact id
    | entry mem inside => exact h _ mem w inside

theorem not_inert_of_isLive {v : Value} (h : v.IsLive) : ¬v.Inert :=
  fun inert ↦ inert v .self h

/-! ### Detached values -/

/-- **One step**: a detached value is inert if the values of the annotations in it are. -/
theorem inert_of_detachBy {f : Description → Eval Stated}
    (inner : ∀ d s, (f d).result = .ok s → ∀ e ∈ s.values, e.2.Inert) {u v : Value}
    (h : (detachBy f u).result = .ok v) : v.Inert := by
  induction u using array_induction generalizing v with
  | other u hu =>
    cases u with
    | nested d =>
      obtain ⟨s, hs, h⟩ := Eval.result_bind_eq_ok.1 h
      cases h
      exact inert_stated_iff.2 (inner d s hs)
    | array us => exact absurd rfl (hu us)
    | _ =>
      cases h
      intro w inside
      cases inside
      exact id
  | array us ih =>
    obtain ⟨vs, hvs, h⟩ := Eval.result_bind_eq_ok.1 h
    cases h
    refine inert_array_iff.2 fun v hv ↦ ?_
    obtain ⟨u, hu, detached⟩ := exists_of_mem_detachAllBy hvs hv
    exact ih u hu detached

end Value

/-! ### Normal annotations -/

namespace Stated

open Annotations.Description (Settled detachWithin)

/-- The annotation is settled all through, and nothing live occurs in its values. -/
structure Normal (s : Stated) : Prop where
  settled : (Description.stated s).Everywhere Settled
  inert : ∀ e ∈ s.values, e.2.Inert

variable {limit room : Nat} {d : Description} {s : Stated}

/-- **Whatever is detached is normal.** -/
theorem normal_of_detachWithin (h : (detachWithin limit room d).result = .ok s) : s.Normal := by
  refine ⟨Description.everywhere_settled_of_detachWithin h, ?_⟩
  induction room generalizing d s with
  | zero => cases h
  | succ room ih =>
    obtain ⟨es, hes, h⟩ := Eval.result_bind_eq_ok.1 h
    cases h
    intro e he
    obtain ⟨a, -, -, u, -, detached⟩ :=
      (Description.of_detachOn hes).2 e (Entries.mem_of_mem_ofList he)
    exact Value.inert_of_detachBy (fun d s hs ↦ ih hs) detached

/-- What holds of each element from some number on holds of all of them from some number on. -/
private theorem exists_room_forall {α : Type} {P : Nat → α → Prop} {as : List α}
    (h : ∀ a ∈ as, ∃ room, ∀ m, room ≤ m → P m a) :
    ∃ room, ∀ m, room ≤ m → ∀ a ∈ as, P m a := by
  choose! room enough using h
  refine ⟨(as.map room).sum, fun m hm a ha ↦ enough a ha m ?_⟩
  exact (List.le_sum_of_mem (List.mem_map_of_mem ha)).trans hm

/-- If the part is normal, it is its own detached form from some number of levels on. -/
private def Returns : Part → Prop
  | .value v => v.Inert → v.Everywhere Settled →
      ∃ room, ∀ m, room ≤ m → ∀ limit, Value.detachBy (detachWithin limit m) v = pure v
  | .stated s => s.Normal →
      ∃ room, ∀ m, room ≤ m → ∀ limit, detachWithin limit m (.stated s) = pure s
  | _ => True

private theorem returns_value {v : Value} (ih : ∀ q ∈ (Part.value v).children, Returns q) :
    Returns (.value v) := by
  intro inert settled
  cases v with
  | nested d =>
    cases d with
    | live l => exact absurd inert (Value.not_inert_of_isLive trivial)
    | stated s =>
      have normal : s.Normal :=
        ⟨Value.everywhere_nested_iff.1 settled, Value.inert_stated_iff.1 inert⟩
      obtain ⟨room, fixed⟩ := ih (.stated s) (List.mem_singleton.2 rfl) normal
      exact ⟨room, fun m enough limit ↦ by rw [Value.detachBy, fixed m enough limit, pure_bind]⟩
  | constant c =>
    cases c with
    | live c => exact absurd inert (Value.not_inert_of_isLive trivial)
    | stated t n => exact ⟨0, fun m _ limit ↦ rfl⟩
  | array vs =>
    obtain ⟨room, fixed⟩ := exists_room_forall
      (P := fun m v ↦ ∀ limit, Value.detachBy (detachWithin limit m) v = pure v) fun v hv ↦
        ih (.value v) (List.mem_map_of_mem hv) (Value.inert_array_iff.1 inert v hv)
          (Value.everywhere_array_iff.1 settled v hv)
    refine ⟨room, fun m enough limit ↦ ?_⟩
    rw [Value.detachBy, Value.detachAllBy_eq_pure fun v hv ↦ fixed m enough v hv limit, pure_bind]
  | _ => exact ⟨0, fun m _ limit ↦ rfl⟩

private theorem returns_stated {s : Stated} (ih : ∀ q ∈ (Part.stated s).children, Returns q) :
    Returns (.stated s) := by
  intro normal
  obtain ⟨room, fixed⟩ := exists_room_forall
    (P := fun m (e : String × Value) ↦
      ∀ limit, Value.detachBy (detachWithin limit m) e.2 = pure e.2) fun e he ↦
      ih (.value e.2) (List.mem_cons_of_mem _ (List.mem_map_of_mem he)) (normal.inert e he)
        (normal.settled.value (normal.settled.self.reports_of_mem he))
  refine ⟨room + 1, fun m enough limit ↦ ?_⟩
  obtain ⟨m, rfl⟩ := Nat.exists_eq_succ_of_ne_zero (by omega : m ≠ 0)
  refine Description.detachWithin_eq_pure normal.settled.self fun v ⟨a, ha, read⟩ ↦ ?_
  have mem := Entries.mem_of_lookup (Stated.get_eq_ok_iff.1 read).2
  exact fixed m (by omega) _ mem limit

/-- **A normal annotation is its own detached form** from some number of levels on. -/
theorem Normal.exists_room (h : s.Normal) :
    ∃ room, ∀ m, room ≤ m → ∀ limit, detachWithin limit m (.stated s) = pure s := by
  have returns : ∀ p, Returns p := by
    intro p
    induction p using Part.induction with
    | step p ih =>
      cases p with
      | value v => exact returns_value ih
      | stated s => exact returns_stated ih
      | type t => trivial
      | live l => trivial
  exact returns (.stated s) h

/-- Under a limit that is not reported it is its own detached form. -/
theorem Normal.detach_eq_pure (h : s.Normal) {m : Nat}
    (unreported : ((Description.stated s).detach m).result ≠ .error (.recursionLimit m)) :
    (Description.stated s).detach m = pure s := by
  obtain ⟨room, fixed⟩ := h.exists_room
  have cutOff : CutOff m (detachWithin m m (.stated s)).result
      (detachWithin m (max room m) (.stated s)).result :=
    Description.detachWithin_cutOff (le_max_right room m) _
  rcases cutOff with cut | same
  · exact absurd cut unreported
  · rw [fixed _ (le_max_left room m)] at same
    exact (independent_detach same).detach m le_rfl

/-- **The normal forms are what detaching gives.** -/
theorem normal_iff : s.Normal ↔ ∃ limit d, (Description.detach limit d).result = .ok s := by
  constructor
  · intro normal
    obtain ⟨room, fixed⟩ := normal.exists_room
    exact ⟨room, .stated s, by rw [Description.detach, fixed room le_rfl]; rfl⟩
  · rintro ⟨limit, d, h⟩
    exact normal_of_detachWithin h

/-- **Detaching gives a normal form**: nothing live occurs in the values of a detached annotation,
and it is its own detached form, under the limit that it was detached under and under every other
one that is not reported. -/
theorem normal_of_detach (h : (d.detach limit).result = .ok s) :
    (∀ e ∈ s.values, ∀ w : Value, w.Occurs e.2 → ¬w.IsLive) ∧
    (Description.stated s).detach limit = pure s ∧
    ∀ m, ((Description.stated s).detach m).result ≠ .error (.recursionLimit m) →
      (Description.stated s).detach m = pure s := by
  have normal := normal_of_detachWithin h
  exact ⟨normal.inert, (independent_detach h).detach limit le_rfl, fun m ↦ normal.detach_eq_pure⟩

/-- A retry annotation, detached: with stated colors, in an array too, and stated markers. -/
def detachedRetry : Stated where
  type := Retry.liveType.describe
  values :=
    let color (name : String) := Value.constant (.stated Color.liveType.describe name)
    let marker (n : Int32) :=
      Value.nested (.stated ⟨Marker.liveType.describe, [("value", .int n)]⟩)
    [("attempts", .int 5), ("backoff", color "GREEN"),
      ("retry_on", .array [color "BLUE", color "RED"]), ("target", .type runnable.describe),
      ("exceptions", .array [.type timeoutException.describe, .type illegalState.describe]),
      ("marker", marker 7), ("markers", .array [marker 1, marker 2]), ("label", .string "network"),
      ("weights", .array [.double ⟨0x3fe0000000000000⟩, .double ⟨0x3ff8000000000000⟩])]

/-- The retry annotation has live colors and markers, and its detached form has none. -/
theorem normal_of_detach_retry :
    ((Description.ofInstance (.retry .default)).detach 2).result = .ok detachedRetry ∧
    (∀ w : Value, w.Occurs (.array [.constant (.stated Color.liveType.describe "BLUE"),
      .constant (.stated Color.liveType.describe "RED")]) → ¬w.IsLive) ∧
    (Description.stated detachedRetry).detach 2 = pure detachedRetry ∧
    (Description.stated detachedRetry).detach 3 = pure detachedRetry ∧
    ((Description.stated detachedRetry).detach 1).result = .error (.recursionLimit 1) := by
  have detached :
      ((Description.ofInstance (.retry .default)).detach 2).result = .ok detachedRetry := rfl
  obtain ⟨inert, again, others⟩ := normal_of_detach detached
  have colors : _ ∈ detachedRetry.values := List.mem_of_getElem? (i := 2) rfl
  refine ⟨detached, inert _ colors, again, others 3 fun reported ↦ ?_, rfl⟩
  have answered : ((Description.stated detachedRetry).detach 3).result = .ok detachedRetry := rfl
  cases answered.symm.trans reported

end Stated

end Annotations
