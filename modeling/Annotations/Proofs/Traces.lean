import Annotations.Proofs.Answers
import Annotations.Proofs.Frozen

/-!
# What readings leave behind

Of what a reading does, only its trace is left. This module is about kinds of events: a reading
leaves events of a kind `E` when no other event is in its trace (`Eval.Leaves`), and sequences do
when their parts do (`Eval.Leaves.bind`).

Which kinds of events the walks through annotations leave is decided by single accessors. Say that
live annotations with a property leave only events of a kind when they are asked for an accessor,
and that they pass the property on to their answers (`Part.Watched`). Then **so do hashing,
detaching, comparing, showing and writing**, of annotations throughout which the property holds, to
any depth and whether they end in an error or not.
-/

namespace Annotations

variable {α β : Type} {E : Event → Prop}

/-! ### Kinds of events -/

/-- All events in the trace of the computation are of the kind. -/
def Traced.Leaves (E : Event → Prop) (x : Traced α) : Prop :=
  ∀ e ∈ x.trace, E e

/-- All events in the trace of the reading are of the kind. -/
def Eval.Leaves (E : Event → Prop) (x : Eval α) : Prop :=
  ∀ e ∈ x.trace, E e

namespace Traced.Leaves

theorem pure (a : α) : Leaves E (Pure.pure a : Traced α) := by
  simp [Leaves]

theorem bind {x : Traced α} {f : α → Traced β} (first : Leaves E x)
    (second : Leaves E (f x.value)) : Leaves E (x >>= f) :=
  List.forall_mem_append.2 ⟨first, second⟩

theorem mapM {as : List α} {f : α → Traced β} (h : ∀ a ∈ as, Leaves E (f a)) :
    Leaves E (as.mapM f) := by
  induction as with
  | nil => exact .pure _
  | cons a as ih =>
    obtain ⟨first, rest⟩ := List.forall_mem_cons.1 h
    rw [List.mapM_cons]
    exact .bind first (.bind (ih rest) (.pure _))

end Traced.Leaves

namespace Eval.Leaves

theorem ofExcept (r : Except ReadError α) : Leaves E (Eval.ofExcept r) := by
  simp [Leaves]

theorem ofTraced {x : Traced α} (h : x.Leaves E) : Leaves E (Eval.ofTraced x) := by
  rwa [Leaves, trace_ofTraced]

theorem pure (a : α) : Leaves E (Pure.pure a : Eval α) :=
  .ofExcept (.ok a)

theorem throw (e : ReadError) : Leaves E (MonadExcept.throw e : Eval α) :=
  .ofExcept (.error e)

theorem record {e : Event} (h : E e) : Leaves E (Eval.record e) := by
  simpa [Leaves] using h

/-- The second reading of a sequence only takes place after an answer of the first. -/
theorem bind {x : Eval α} {f : α → Eval β} (first : Leaves E x)
    (second : ∀ a, x.result = .ok a → Leaves E (f a)) : Leaves E (x >>= f) := by
  rw [Leaves, trace_bind]
  refine List.forall_mem_append.2 ⟨first, ?_⟩
  cases hx : x.result with
  | ok a => exact second a hx
  | error e => simp

theorem forM {as : List α} {f : α → Eval Unit} (h : ∀ a ∈ as, Leaves E (f a)) :
    Leaves E (ForM.forM as f) := by
  induction as with
  | nil => exact .pure _
  | cons a as ih =>
    obtain ⟨first, rest⟩ := List.forall_mem_cons.1 h
    rw [List.forM_cons]
    exact .bind first fun _ _ ↦ ih rest

end Eval.Leaves

/-! ### Walks through values -/

namespace Value

private theorem allEqualBy_leaves {f : Description → Description → Eval Bool} {vs ws : List Value}
    (h : ∀ v ∈ vs, ∀ w ∈ ws, (equalBy f v w).Leaves E) : (allEqualBy f vs ws).Leaves E := by
  induction vs generalizing ws with
  | nil => simpa [allEqualBy] using Eval.Leaves.pure true
  | cons v vs ih =>
    cases ws with
    | nil => simpa [allEqualBy] using Eval.Leaves.pure true
    | cons w ws =>
      rw [allEqualBy]
      refine .bind (h v List.mem_cons_self w List.mem_cons_self) fun b _ ↦ ?_
      cases b with
      | false => exact .pure _
      | true => exact ih fun v hv w hw ↦ h v (.tail _ hv) w (.tail _ hw)

theorem equalBy_leaves {f : Description → Description → Eval Bool} {v w : Value}
    (inner : ∀ d e, v.Holds d → w.Holds e → (f d e).Leaves E) : (equalBy f v w).Leaves E := by
  induction v using array_induction generalizing w with
  | other v hv =>
    cases v with
    | nested d =>
      cases w with
      | nested e => exact inner d e (.nested d) (.nested e)
      | _ => exact .pure _
    | array vs => exact absurd rfl (hv vs)
    | _ => cases w <;> exact .pure _
  | array vs ih =>
    cases w with
    | array ws =>
      rw [equalBy]
      split
      · refine allEqualBy_leaves fun v hv w hw ↦ ih v hv fun d e hd he ↦ ?_
        exact inner d e (.array hv hd) (.array hw he)
      · exact .pure _
    | _ => exact .pure _

private theorem renderAllBy_leaves {f : Description → Traced String} {vs : List Value}
    (h : ∀ v ∈ vs, (renderBy f v).Leaves E) : (renderAllBy f vs).Leaves E := by
  induction vs with
  | nil => exact .pure _
  | cons v vs ih =>
    obtain ⟨first, rest⟩ := List.forall_mem_cons.1 h
    rw [renderAllBy]
    exact .bind first (.bind (ih rest) (.pure _))

theorem renderBy_leaves {f : Description → Traced String} {v : Value}
    (inner : ∀ d, v.Holds d → (f d).Leaves E) : (renderBy f v).Leaves E := by
  induction v using array_induction with
  | other v hv =>
    cases v with
    | nested d => exact inner d (.nested d)
    | array vs => exact absurd rfl (hv vs)
    | _ => exact .pure _
  | array vs ih =>
    rw [renderBy]
    refine .bind (renderAllBy_leaves fun v hv ↦ ih v hv fun d hd ↦ ?_) (.pure _)
    exact inner d (.array hv hd)

end Value

/-! ### Walks through annotations -/

namespace Part

/-- Live annotations with the property leave only events of the kind when they are asked for an
accessor, and their answers have the property again. -/
structure Watched (P : Part → Prop) (E : Event → Prop) : Prop extends Inherited P where
  leaves : ∀ l : Live, P (.live l) → ∀ h, (l.get h).Leaves E

namespace Watched

variable {P : Part → Prop} (watched : Watched P E)
include watched

theorem get {d : Description} (hd : (ofDescription d).Throughout P) (h : Handle) :
    (d.get h).Leaves E := by
  cases d with
  | stated s => exact .ofExcept _
  | live l => exact watched.leaves l hd.self h

theorem named {d : Description} (hd : (ofDescription d).Throughout P) (n : String) :
    (d.named n).Leaves E := by
  rw [Description.named]
  split
  · exact watched.get hd _
  · exact .throw _

private theorem survey {d : Description} (hd : (ofDescription d).Throughout P) (limit room : Nat) :
    (d.surveyWithin limit room).Leaves E := by
  induction room generalizing d with
  | zero => exact .throw _
  | succ room ih =>
    refine .forM fun a _ ↦ .bind (watched.get hd _) fun v hv ↦ .forM fun e he ↦ ?_
    exact ih (watched.inside hd hv (Value.mem_held_iff.1 he))

theorem hash {d : Description} (hd : (ofDescription d).Throughout P) (limit : Nat) :
    (d.hash limit).Leaves E := by
  have survey := watched.survey hd limit limit
  rwa [← Description.silent_hashWithin, Eval.Leaves, Eval.trace_silent] at survey

theorem detach {d : Description} (hd : (ofDescription d).Throughout P) (limit : Nat) :
    (d.detach limit).Leaves E := by
  have survey := watched.survey hd limit limit
  rwa [← Description.silent_detachWithin, Eval.Leaves, Eval.trace_silent] at survey

private theorem agreeOn {f : Value → Value → Eval Bool} {l r : Description}
    (hl : (ofDescription l).Throughout P) (hr : (ofDescription r).Throughout P)
    (inside : ∀ v w, (value v).Throughout P → (value w).Throughout P → (f v w).Leaves E)
    (as : List Accessor) : (Description.agreeOn f l r as).Leaves E := by
  induction as with
  | nil => exact .pure _
  | cons a as ih =>
    rw [Description.agreeOn]
    refine .bind (watched.get hl _) fun v hv ↦ .bind (watched.get hr _) fun w hw ↦
      .bind (inside v w (watched.answer hl hv) (watched.answer hr hw)) fun b _ ↦ ?_
    cases b with
    | false => exact .pure _
    | true => exact ih

private theorem equalWithin {l r : Description} (hl : (ofDescription l).Throughout P)
    (hr : (ofDescription r).Throughout P) (limit room : Nat) :
    (l.equalWithin limit room r).Leaves E := by
  induction room generalizing l r with
  | zero => exact .throw _
  | succ room ih =>
    rw [Description.equalWithin]
    split
    · refine watched.agreeOn hl hr (fun v w hv hw ↦ ?_) _
      exact Value.equalBy_leaves fun d e hd he ↦
        ih (hv.of_contains (contains_of_holds hd)) (hw.of_contains (contains_of_holds he))
    · exact .pure _

theorem equal {l r : Description} (hl : (ofDescription l).Throughout P)
    (hr : (ofDescription r).Throughout P) (limit : Nat) : (l.equal limit r).Leaves E :=
  watched.equalWithin hl hr limit limit

private theorem renderSlot {f : Value → Traced String} {d : Description}
    (hd : (ofDescription d).Throughout P)
    (inside : ∀ v, (value v).Throughout P → (f v).Leaves E) (a : Accessor) :
    (Description.renderSlot f d a).Leaves E := by
  refine .bind (watched.get hd a.handle) ?_
  dsimp only
  split
  · next v hv => exact .bind (inside v (watched.answer hd hv)) (.pure _)
  · exact .pure _

private theorem renderWithin {d : Description} (hd : (ofDescription d).Throughout P) (room : Nat) :
    (d.renderWithin room).Leaves E := by
  induction room generalizing d with
  | zero => exact .pure _
  | succ room ih =>
    refine .bind (.mapM fun a _ ↦ watched.renderSlot hd (fun v hv ↦ ?_) a) (.pure _)
    exact Value.renderBy_leaves fun e he ↦ ih (hv.of_contains (contains_of_holds he))

theorem render {d : Description} (hd : (ofDescription d).Throughout P) (limit : Nat) :
    (d.render limit).Leaves E :=
  watched.renderWithin hd limit

private theorem freezing (p : Part) (hp : p.Throughout P) (limit : Nat) :
    (p.freezing limit).Leaves E := by
  induction p using Part.induction with
  | step p ih =>
    by_cases notLive : p.NotLive
    · rw [freezing_eq_forM notLive]
      exact .forM fun q hq ↦ ih q hq (hp.child hq)
    · cases p with
      | live l =>
        rw [Part.freezing, Eval.Leaves, Eval.trace_silent]
        exact watched.detach (d := .live l) hp limit
      | _ => exact absurd trivial notLive

theorem write {d : Description} (hd : (ofDescription d).Throughout P) (limit : Nat) :
    (d.write limit).Leaves E := by
  have freeze : ((ofDescription d).freezing limit).Leaves E := watched.freezing _ hd limit
  rw [Description.freezing_ofDescription, Eval.Leaves, Eval.trace_silent] at freeze
  exact .bind freeze fun s _ ↦ .pure _

end Watched

end Part

end Annotations
