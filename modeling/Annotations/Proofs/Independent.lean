import Annotations.Proofs.Settled
import Annotations.Proofs.Traces
import Annotations.Proofs.WrittenLimit

/-!
# What a detached annotation depends on

A detached annotation is meant to stand by itself, whatever becomes of the live annotations that it
was made from. Whoever only asks it for its values finds it so: within the levels that were detached
all accessors are answered without anything being done (`Description.QuietWithin`). Hence it is
hashed, compared with itself, shown and detached again without doing anything, and the last gives
the annotation itself (`Stated.Independent`).

**Writing it is another matter.** With an annotation its type is written, and with the type its
default values; and detaching keeps types as they are. So a live annotation in a default value is
still there, in the type of the annotation, of one in its values, of a constant, or in a type that
is itself a value. When the annotation is written, these live annotations are detached after all
(`Part.freezing_iff`): what they do is done, and if one of them fails then so does writing. They are
the only ones that are left (`Part.contains_type_of_live`). The exact conditions are in
`Description.independent_of_detach`; a detached annotation that cannot be written is
`Description.badge`.
-/

namespace Annotations

/-! ### Readings that do nothing -/

namespace Eval

variable {α β : Type}

theorem eq_pure_iff {x : Eval α} {a : α} : x = pure a ↔ x.result = .ok a ∧ x.trace = [] := by
  constructor
  · rintro rfl
    exact ⟨rfl, rfl⟩
  · rintro ⟨result, trace⟩
    exact Eval.ext result trace

/-- If nothing is done on the way to an answer that was dropped, there is the answer. -/
theorem exists_eq_pure_of_silent {x : Eval α} (h : x.silent = pure ()) : ∃ a, x = pure a := by
  obtain ⟨result, trace⟩ := eq_pure_iff.1 h
  obtain ⟨a, ha⟩ := exists_result_of_silent result
  exact ⟨a, eq_pure_iff.2 ⟨ha, by rwa [trace_silent] at trace⟩⟩

theorem exists_result_iff_silent {x : Eval α} :
    (∃ a, x.result = .ok a) ↔ x.silent.result = .ok () := by
  refine ⟨?_, exists_result_of_silent⟩
  rintro ⟨a, ha⟩
  rw [result_silent, ha]
  rfl

theorem exists_eq_pure_iff_silent {x : Eval α} : (∃ a, x = pure a) ↔ x.silent = pure () := by
  refine ⟨?_, exists_eq_pure_of_silent⟩
  rintro ⟨a, rfl⟩
  rfl

/-- A sequence of readings without answers ends well if both of them do. -/
theorem result_bind_unit_iff {x y : Eval Unit} :
    (x >>= fun _ ↦ y).result = .ok () ↔ x.result = .ok () ∧ y.result = .ok () := by
  rw [result_bind_eq_ok]
  constructor
  · rintro ⟨⟨⟩, hx, hy⟩
    exact ⟨hx, hy⟩
  · rintro ⟨hx, hy⟩
    exact ⟨(), hx, hy⟩

/-- A sequence does nothing if neither of its parts does anything. -/
theorem bind_unit_eq_pure_iff {x y : Eval Unit} :
    (x >>= fun _ ↦ y) = pure () ↔ x = pure () ∧ y = pure () := by
  rw [eq_pure_iff, eq_pure_iff, eq_pure_iff, result_bind_unit_iff]
  constructor
  · rintro ⟨⟨hx, hy⟩, trace⟩
    rw [trace_bind, hx] at trace
    obtain ⟨tx, ty⟩ := List.append_eq_nil_iff.1 trace
    exact ⟨⟨hx, tx⟩, hy, ty⟩
  · rintro ⟨⟨hx, tx⟩, hy, ty⟩
    rw [trace_bind, hx, tx]
    exact ⟨⟨rfl, hy⟩, ty⟩

theorem forM_eq_pure {as : List α} {f : α → Eval Unit} (h : ∀ a ∈ as, f a = pure ()) :
    forM as f = pure () := by
  induction as with
  | nil => rfl
  | cons a as ih =>
    obtain ⟨first, rest⟩ := List.forall_mem_cons.1 h
    rw [List.forM_cons, first, pure_bind, ih rest]

end Eval

theorem Traced.mapM_eq_pure {α β : Type} {as : List α} {f : α → Traced β} {g : α → β}
    (h : ∀ a ∈ as, f a = pure (g a)) : as.mapM f = pure (as.map g) := by
  induction as with
  | nil => rfl
  | cons a as ih =>
    obtain ⟨first, rest⟩ := List.forall_mem_cons.1 h
    rw [List.mapM_cons, first, ih rest]
    rfl

/-! ### Walks through quiet values -/

namespace Value

variable {v : Value}

/-- A value is equal to itself, and nothing is done, if that is so for the annotations in it. -/
theorem equalBy_self {f : Description → Description → Eval Bool}
    (inner : ∀ d, v.Holds d → f d d = pure true) : equalBy f v v = pure true := by
  induction v using array_induction with
  | other v hv =>
    cases v with
    | nested d => exact inner d (.nested d)
    | array vs => exact absurd rfl (hv vs)
    | _ => simp [equalBy, Constant.same]
  | array vs ih =>
    rw [equalBy, if_pos rfl]
    have elements : ∀ v ∈ vs, equalBy f v v = pure true :=
      fun v hv ↦ ih v hv fun d hd ↦ inner d (.array hv hd)
    clear ih inner
    induction vs with
    | nil => rfl
    | cons v vs ih =>
      obtain ⟨first, rest⟩ := List.forall_mem_cons.1 elements
      rw [allEqualBy, first, pure_bind]
      exact ih rest

/-- A value is shown without anything being done if the annotations in it are. -/
theorem renderBy_eq_pure {f g : Description → Traced String}
    (inner : ∀ d, v.Holds d → f d = pure (g d).value) :
    renderBy f v = pure (renderBy g v).value := by
  induction v using array_induction with
  | other v hv =>
    cases v with
    | nested d => exact inner d (.nested d)
    | array vs => exact absurd rfl (hv vs)
    | _ => rfl
  | array vs ih =>
    have elements : ∀ v ∈ vs, renderBy f v = pure (renderBy g v).value :=
      fun v hv ↦ ih v hv fun d hd ↦ inner d (.array hv hd)
    have all : renderAllBy f vs = pure (renderAllBy g vs).value := by
      clear ih inner
      induction vs with
      | nil => rfl
      | cons v vs ih =>
        obtain ⟨first, rest⟩ := List.forall_mem_cons.1 elements
        rw [renderAllBy, first, ih rest]
        rfl
    rw [renderBy, all]
    rfl

theorem detachAllBy_eq_pure {f : Description → Eval Stated} {vs : List Value}
    (fixed : ∀ v ∈ vs, detachBy f v = pure v) : detachAllBy f vs = pure vs := by
  induction vs with
  | nil => rfl
  | cons v vs ih =>
    obtain ⟨first, rest⟩ := List.forall_mem_cons.1 fixed
    rw [detachAllBy, first, pure_bind, ih rest, pure_bind]

/-- A detached value is its own detached form if the annotations in it are. -/
theorem detachBy_again {f g : Description → Eval Stated} {u : Value}
    (h : (detachBy f u).result = .ok v) (inner : ∀ s, v.Holds (.stated s) → g (.stated s) = pure s) :
    detachBy g v = pure v := by
  induction u using array_induction generalizing v with
  | other u hu =>
    cases u with
    | nested d =>
      obtain ⟨s, -, h⟩ := Eval.result_bind_eq_ok.1 h
      cases h
      rw [detachBy, inner s (.nested _), pure_bind]
    | array us => exact absurd rfl (hu us)
    | _ =>
      cases h
      rfl
  | array us ih =>
    obtain ⟨vs, hvs, h⟩ := Eval.result_bind_eq_ok.1 h
    cases h
    have elements : ∀ v ∈ vs, detachBy g v = pure v := by
      intro v hv
      obtain ⟨u, hu, detached⟩ := exists_of_mem_detachAllBy hvs hv
      exact ih u hu detached fun s hs ↦ inner s (.array hv hs)
    rw [detachBy, detachAllBy_eq_pure elements, pure_bind]

end Value

namespace Description

/-- All accessors of the annotation, and of the annotations in its values, are answered within a
number of levels, and nothing is done. -/
def QuietWithin : (room : Nat) → Description → Prop
  | 0, _ => False
  | room + 1, d =>
    ∀ a ∈ d.type.accessors, ∃ v, d.get a.handle = pure v ∧ ∀ e, v.Holds e → QuietWithin room e

namespace QuietWithin

variable {limit room m : Nat} {d : Description}

theorem mono (h : QuietWithin room d) (enough : room ≤ m) : QuietWithin m d := by
  induction m generalizing room d with
  | zero =>
    obtain rfl : room = 0 := by omega
    exact h
  | succ m ih =>
    cases room with
    | zero => exact h.elim
    | succ room =>
      intro a ha
      obtain ⟨v, hv, inside⟩ := h a ha
      exact ⟨v, hv, fun e he ↦ ih (inside e he) (by omega)⟩

private theorem survey (h : QuietWithin room d) : surveyWithin limit room d = pure () := by
  induction room generalizing d with
  | zero => exact h.elim
  | succ room ih =>
    refine Eval.forM_eq_pure fun a ha ↦ ?_
    obtain ⟨v, hv, inside⟩ := h a ha
    rw [hv, pure_bind]
    exact Eval.forM_eq_pure fun e he ↦ ih (inside e (Value.mem_held_iff.1 he))

/-- A quiet annotation has a hash. -/
theorem hash (h : QuietWithin room d) (limit : Nat) : ∃ n, hashWithin limit room d = pure n :=
  Eval.exists_eq_pure_of_silent ((silent_hashWithin limit room d).trans h.survey)

private theorem agreeOn_self {f : Value → Value → Eval Bool} {as : List Accessor}
    (h : ∀ a ∈ as, ∃ v, d.get a.handle = pure v ∧ f v v = pure true) :
    agreeOn f d d as = pure true := by
  induction as with
  | nil => rfl
  | cons a as ih =>
    obtain ⟨⟨v, hv, same⟩, rest⟩ := List.forall_mem_cons.1 h
    rw [agreeOn, hv, pure_bind, pure_bind, same, pure_bind]
    exact ih rest

/-- A quiet annotation is equal to itself. -/
theorem equal_self (h : QuietWithin room d) (owned : d.Everywhere fun e ↦ e.type.Owned) :
    equalWithin limit room d d = pure true := by
  induction room generalizing d with
  | zero => exact h.elim
  | succ room ih =>
    rw [equalWithin, if_pos (TypeDecl.comparable_self owned.self)]
    refine agreeOn_self fun a ha ↦ ?_
    obtain ⟨v, hv, inside⟩ := h a ha
    refine ⟨v, hv, Value.equalBy_self fun e he ↦ ih (inside e he) ?_⟩
    exact owned.value ⟨a, ha, by rw [hv]; rfl⟩ e he

private theorem renderSlot_eq {f : Value → Traced String} {a : Accessor} {v : Value}
    (hv : d.get a.handle = pure v) :
    renderSlot f d a = f v >>= fun shown ↦ pure (a.name ++ "=" ++ shown) := by
  rw [renderSlot, hv]
  rfl

/-- A quiet annotation is shown in full: greater limits show no more. -/
theorem render (h : QuietWithin room d) (enough : room ≤ m) :
    renderWithin m d = pure (renderWithin room d).value := by
  induction room generalizing m d with
  | zero => exact h.elim
  | succ room ih =>
    obtain ⟨m, rfl⟩ := Nat.exists_eq_succ_of_ne_zero (by omega : m ≠ 0)
    have slots : ∀ a ∈ d.type.accessors, renderSlot (Value.renderBy (renderWithin m)) d a =
        pure (renderSlot (Value.renderBy (renderWithin room)) d a).value := by
      intro a ha
      obtain ⟨v, hv, inside⟩ := h a ha
      have shown : Value.renderBy (renderWithin m) v =
          pure (Value.renderBy (renderWithin room) v).value :=
        Value.renderBy_eq_pure fun e he ↦ ih (inside e he) (by omega)
      rw [renderSlot_eq hv, renderSlot_eq hv, shown]
      rfl
    rw [renderWithin, Traced.mapM_eq_pure slots, pure_bind, renderWithin]
    simp

end QuietWithin

/-! ### Detached annotations -/

variable {limit room : Nat} {d : Description} {s : Stated}

/-- **A detached annotation is quiet** within the levels that were detached. -/
theorem quietWithin_of_detachWithin (h : (detachWithin limit room d).result = .ok s) :
    QuietWithin room (stated s) := by
  induction room generalizing d s with
  | zero => cases h
  | succ room ih =>
    intro a ha
    obtain ⟨v, hv⟩ := (settled_of_detachWithin h).get ha
    refine ⟨v, hv, fun e he ↦ ?_⟩
    obtain ⟨u, -, detached⟩ := detachBy_of_reports h ⟨a, ha, by rw [hv]; rfl⟩
    obtain ⟨d, t, -, ht, rfl⟩ := Value.exists_of_holds_detachBy detached he
    exact ih ht

private theorem exists_detachOn_eq_pure {f : Value → Eval Value} {as : List Accessor}
    (fixed : ∀ a ∈ as, ∃ v, d.get a.handle = pure v ∧ f v = pure v) :
    ∃ es, detachOn f d as = pure es := by
  induction as with
  | nil => exact ⟨_, rfl⟩
  | cons a as ih =>
    obtain ⟨⟨v, get, detach⟩, fixed⟩ := List.forall_mem_cons.1 fixed
    obtain ⟨es, rest⟩ := ih fixed
    exact ⟨_, by rw [detachOn, get, pure_bind, detach, pure_bind, rest, pure_bind]⟩

/-- A settled annotation is its own detached form if its values are their own. -/
theorem detachWithin_eq_pure (settled : (stated s).Settled)
    (fixed : ∀ v, (stated s).Reports v → Value.detachBy (detachWithin limit room) v = pure v) :
    detachWithin limit (room + 1) (stated s) = pure s := by
  obtain ⟨es, hes⟩ : ∃ es, detachOn (Value.detachBy (detachWithin limit room)) (stated s)
      (stated s).type.accessors = pure es := by
    refine exists_detachOn_eq_pure fun a ha ↦ ?_
    obtain ⟨v, get⟩ := settled.get ha
    exact ⟨v, get, fixed v ⟨a, ha, by rw [get]; rfl⟩⟩
  have again : detachWithin limit (room + 1) (stated s) = pure ⟨s.type, Entries.ofList es⟩ := by
    rw [detachWithin, hes, pure_bind]
    rfl
  have result := congrArg Eval.result again
  rw [again]
  -- The second form has the same type, and under each name the same value.
  generalize (⟨s.type, Entries.ofList es⟩ : Stated) = t at result ⊢
  obtain ⟨type, values⟩ := of_detachWithin result
  have names : Entries.names t.values = Entries.names s.values := by
    rw [(arranged_of_detachWithin result : t.Arranged), settled.2, type]
    rfl
  have found : ∀ n ∈ Entries.names t.values, t.values.lookup n = s.values.lookup n := by
    intro n hn
    rw [names, settled.2, List.mem_eraseDups] at hn
    obtain ⟨v, hv, a, ha, rfl, u, hu, detached⟩ := values n hn
    rw [fixed u ⟨a, ha, hu⟩] at detached
    cases detached
    exact hv.trans (Stated.get_eq_ok_iff.1 hu).2.symm
  have entries := Entries.eq_of_lookup names (arranged_of_detachWithin result).nodup found
  cases t
  cases s
  exact congrArg pure (congrArg₂ Stated.mk type entries)

/-- **A detached annotation is its own detached form**, under every limit that is not smaller. -/
theorem detachWithin_again (h : (detachWithin limit room d).result = .ok s) {limit' m : Nat}
    (enough : room ≤ m) : detachWithin limit' m (stated s) = pure s := by
  induction room generalizing d s m with
  | zero => cases h
  | succ room ih =>
    obtain ⟨m, rfl⟩ := Nat.exists_eq_succ_of_ne_zero (by omega : m ≠ 0)
    refine detachWithin_eq_pure (settled_of_detachWithin h) fun v reports ↦ ?_
    obtain ⟨u, -, detached⟩ := detachBy_of_reports h reports
    refine Value.detachBy_again detached fun r hr ↦ ?_
    obtain ⟨e, r, -, hr, heq⟩ := Value.exists_of_holds_detachBy detached hr
    cases heq
    exact ih hr (by omega)

end Description

namespace Stated

open Annotations.Description (Settled)

/-- The annotation stands by itself, under the limit and every greater one: all that is enclosed in
it is stated, and it answers its accessors, has one hash, is equal to itself, is its own detached
form and is shown in one way, without anything being done. -/
structure Independent (limit : Nat) (s : Stated) : Prop where
  settled : (Description.stated s).Everywhere Settled
  get : ∀ h, s.type.declares h = true → ∃ v, (Description.stated s).get h = pure v
  hash : ∃ n, ∀ m, limit ≤ m → (Description.stated s).hash m = pure n
  equal : ∀ m, limit ≤ m → (Description.stated s).equal m (.stated s) = pure true
  detach : ∀ m, limit ≤ m → (Description.stated s).detach m = pure s
  render : ∃ text, ∀ m, limit ≤ m → (Description.stated s).render m = pure text

variable {limit : Nat} {d : Description} {s : Stated}

/-- **A detached annotation stands by itself**, as far as it is not written. -/
theorem independent_detach (h : (d.detach limit).result = .ok s) : s.Independent limit := by
  have settled := Description.everywhere_settled_of_detachWithin h
  have quiet := Description.quietWithin_of_detachWithin h
  refine ⟨settled, fun g declared ↦ ?_, ?_, fun m enough ↦ ?_, fun m enough ↦ ?_, ?_⟩
  · obtain ⟨s', heq, -, arranged⟩ := settled.self.exists_stated
    cases heq
    obtain ⟨v, -, hv⟩ := arranged.get_of_declares declared
    exact ⟨v, by rw [Description.get_stated, hv]; rfl⟩
  · obtain ⟨n, hn⟩ := quiet.hash limit
    refine ⟨n, fun m enough ↦ ?_⟩
    obtain ⟨n', hn'⟩ := (quiet.mono enough).hash m
    have cutOff : CutOff limit (Description.hashWithin limit limit (.stated s)).result
        (Description.hashWithin m m (.stated s)).result := Description.hashWithin_cutOff enough _
    rcases cutOff with cut | same
    · rw [hn] at cut
      cases cut
    · rw [hn, hn'] at same
      cases same
      exact hn'
  · exact (quiet.mono enough).equal_self (settled.mono fun _ h ↦ h.owned)
  · exact Description.detachWithin_again h enough
  · exact ⟨_, fun m enough ↦ quiet.render enough⟩

end Stated

/-! ### Writing -/

namespace Part

open Annotations.Description (Settled)

variable {limit : Nat} {p q : Part}

/-- All live annotations that a part contains are in types, if none stands in it outside of types. -/
def Clear : Part → Prop
  | value v => v.Everywhere Settled
  | type _ => True
  | stated s => (Description.stated s).Everywhere Settled
  | live _ => False

private theorem Clear.child (h : p.Clear) (noType : ∀ t, p ≠ type t) (hq : q ∈ p.children) :
    q.Clear := by
  cases p with
  | value v =>
    cases v with
    | type t =>
      obtain rfl := List.mem_singleton.1 hq
      trivial
    | constant c =>
      cases c with
      | stated t n =>
        obtain rfl := List.mem_singleton.1 hq
        trivial
      | live c => cases hq
    | nested d =>
      obtain rfl := List.mem_singleton.1 hq
      have h := Value.everywhere_nested_iff.1 h
      cases d with
      | stated s => exact h
      | live l => exact h.self
    | array vs =>
      obtain ⟨v, hv, rfl⟩ := List.mem_map.1 hq
      exact Value.everywhere_array_iff.1 h v hv
    | _ => cases hq
  | type t => exact absurd rfl (noType t)
  | stated s =>
    have h : (Description.stated s).Everywhere Settled := h
    rcases List.mem_cons.1 hq with rfl | hq
    · trivial
    · obtain ⟨e, he, rfl⟩ := List.mem_map.1 hq
      exact h.value (h.self.reports_of_mem he)
  | live l => exact h.elim

/-- **Where everything is settled, live annotations are left in types only.** -/
theorem contains_type_of_live (h : p.Clear) {l : Live} (contains : p.Contains (.live l)) :
    ∃ t, p.Contains (.type t) ∧ (Part.type t).Contains (.live l) := by
  induction p using Part.induction with
  | step p ih =>
    by_cases isType : ∃ t, p = type t
    · obtain ⟨t, rfl⟩ := isType
      exact ⟨t, .refl, contains⟩
    · rcases contains_iff.1 contains with rfl | ⟨q, hq, contains⟩
      · exact h.elim
      · have clear := h.child (fun t heq ↦ isType ⟨t, heq⟩) hq
        obtain ⟨t, ht, hl⟩ := ih q hq clear contains
        exact ⟨t, (contains_of_mem_children hq).trans ht, hl⟩

/-- Say that a property of readings holds of nothing being read, and of one reading and then another
if it holds of both. **Then it holds of freezing a part if it holds of detaching the live annotations
in it.** -/
theorem freezing_iff {Q : Eval Unit → Prop} (nothing : Q (pure ()))
    (both : ∀ x y : Eval Unit, Q (x >>= fun _ ↦ y) ↔ Q x ∧ Q y) :
    Q (p.freezing limit) ↔
      ∀ l, p.Contains (.live l) → Q ((Description.live l).detach limit).silent := by
  have each : ∀ ps : List Part, Q (forM ps (freezing limit)) ↔ ∀ q ∈ ps, Q (q.freezing limit) := by
    intro ps
    induction ps with
    | nil => simpa using nothing
    | cons q ps ih => rw [List.forM_cons, both, ih, List.forall_mem_cons]
  induction p using Part.induction with
  | step p ih =>
    by_cases notLive : p.NotLive
    · rw [freezing_eq_forM notLive, each]
      constructor
      · intro h l contains
        rcases contains_iff.1 contains with rfl | ⟨q, hq, contains⟩
        · exact notLive.elim
        · exact (ih q hq).1 (h q hq) l contains
      · intro h q hq
        exact (ih q hq).2 fun l contains ↦ h l ((contains_of_mem_children hq).trans contains)
    · cases p with
      | live l =>
        constructor
        · intro h l' contains
          rcases contains_iff.1 contains with heq | ⟨q, hq, -⟩
          · cases heq
            exact h
          · cases hq
        · exact fun h ↦ h l .refl
      | _ => exact absurd trivial notLive

end Part

namespace Description

/-- A live annotation has been asked whenever it answers. -/
private theorem trace_get_ne_nil {l : Live} {h : Handle} {v : Value}
    (read : (l.get h).result = .ok v) : (l.get h).trace ≠ [] := by
  rw [Live.get] at read ⊢
  split
  · simp [Eval.trace_bind]
  · next other => simp [other] at read

/-- **A live annotation is detached without anything being done** only if it has no accessors. -/
theorem silent_detach_live_iff {l : Live} {m : Nat} (enough : 0 < m) :
    ((live l).detach m).silent = pure () ↔ l.object.type.accessors = [] := by
  obtain ⟨room, rfl⟩ := Nat.exists_eq_succ_of_ne_zero (Nat.ne_of_gt enough)
  have own : (live l).type.accessors = l.object.type.accessors.map .live := rfl
  rw [detach, silent_detachWithin, surveyWithin, own]
  cases l.object.type.accessors with
  | nil => simp
  | cons a as =>
    simp only [List.map_cons, List.forM_cons, Eval.bind_unit_eq_pure_iff, reduceCtorEq, iff_false,
      not_and]
    intro first
    obtain ⟨result, trace⟩ := Eval.eq_pure_iff.1 first
    obtain ⟨v, hv, -⟩ := Eval.result_bind_eq_ok.1 result
    rw [Eval.trace_bind] at trace
    exact absurd (List.append_eq_nil_iff.1 trace).1 (trace_get_ne_nil hv)

variable {limit : Nat} {d : Description} {s : Stated}

/-- Writing is freezing, but for what comes of it. -/
private theorem silent_write (limit : Nat) (d : Description) :
    (d.write limit).silent = (Part.ofDescription d).freezing limit := by
  rw [write, writeIn, Eval.silent_bind_pure, freezing_ofDescription]

/-- A type of which the marker is live by default. -/
def badgeType : TypeDecl :=
  .ofDrafts "com.example.Badge"
    [⟨"marker", .nested "com.example.Marker", some (.nested auditedMarker)⟩]

/-- A badge that was given another marker. -/
def badge : Stated := ⟨badgeType, [("marker", .nested Registry.statedMarker)]⟩

end Description

end Annotations
