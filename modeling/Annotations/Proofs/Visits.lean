import Annotations.Proofs.Places

/-!
# What a comparison reads

At a place where both sides hold annotations, a comparison **visits** the accessors of the left one
(`Visit`): it reads the left side and then, if there is a value, the right side. The visits are in
the order of their places. This is the lexicographic order `<` of lists of numbers: from the outside
in, and accessors and elements by their numbers.

`Value.Reads x y R t` says that the events `t` are those of the visits at the places of a region
`R`, each of them once and in this order. Regions that follow each other are read one after the
other (`Reads.append`), and what is behind a step is read as it is seen from there (`Reads.under`).
-/

namespace Annotations

/-! ### Visits -/

/-- Two annotations at a place, and the accessor of the left one, given by its number, that both are
asked for. -/
structure Visit where
  place : Place
  index : Nat
  left : Description
  right : Description
  accessor : Accessor

namespace Visit

variable {x y u w : Value} {v : Visit} {i : Nat}

/-- The place of what the accessor gives. -/
def spot (v : Visit) : Place := v.place ++ [v.index]

/-- The visit is one of those in the two values. -/
def On (v : Visit) (x y : Value) : Prop :=
  Value.Leads x y v.place (.nested v.left) (.nested v.right) ∧
    v.left.type.accessors[v.index]? = some v.accessor

/-- Reads the left side and then the right one. -/
def ask (v : Visit) : Eval (Value × Value) := do
  let x ← v.left.get v.accessor.handle
  let y ← v.right.get v.accessor.handle
  pure (x, y)

/-- Both sides have a value. -/
def Answered (v : Visit) : Prop :=
  ∃ x y, (v.left.get v.accessor.handle).result = .ok x ∧
    (v.right.get v.accessor.handle).result = .ok y

/-- The left side fails with the error, or the left side has a value and the right side fails with
the error. -/
def FailsWith (v : Visit) (e : ReadError) : Prop :=
  (v.left.get v.accessor.handle).result = .error e ∨
    (∃ x, (v.left.get v.accessor.handle).result = .ok x) ∧
      (v.right.get v.accessor.handle).result = .error e

/-- The same visit, seen from one step further outside. -/
def under (i : Nat) (v : Visit) : Visit :=
  { v with place := i :: v.place }

@[simp] theorem spot_under (i : Nat) (v : Visit) : (v.under i).spot = i :: v.spot := rfl

@[simp] theorem ask_under (i : Nat) (v : Visit) : (v.under i).ask = v.ask := rfl

theorem spot_ne_nil (v : Visit) : v.spot ≠ [] := by
  simp [spot]

theorem nil_lt_spot (v : Visit) : [] < v.spot := by
  cases h : v.spot with
  | nil => exact absurd h v.spot_ne_nil
  | cons i p => exact List.nil_lt_cons i p

theorem ask_eq_ok_iff : v.ask.result = .ok (x, y) ↔
    (v.left.get v.accessor.handle).result = .ok x ∧
      (v.right.get v.accessor.handle).result = .ok y := by
  constructor
  · intro h
    obtain ⟨x', left, h⟩ := Eval.result_bind_eq_ok.1 h
    obtain ⟨y', right, h⟩ := Eval.result_bind_eq_ok.1 h
    cases h
    exact ⟨left, right⟩
  · rintro ⟨left, right⟩
    rw [ask, Eval.result_bind_of_eq_ok left, Eval.result_bind_of_eq_ok right, Eval.result_pure]

theorem failsWith_of_ask {e : ReadError} (h : v.ask.result = .error e) : v.FailsWith e := by
  rw [ask] at h
  cases left : (v.left.get v.accessor.handle).result with
  | error e' =>
    rw [Eval.result_bind_of_eq_error left] at h
    cases h
    exact .inl left
  | ok x =>
    rw [Eval.result_bind_of_eq_ok left] at h
    cases right : (v.right.get v.accessor.handle).result with
    | error e' =>
      rw [Eval.result_bind_of_eq_error right] at h
      cases h
      exact .inr ⟨⟨x, left⟩, right⟩
    | ok y =>
      rw [Eval.result_bind_of_eq_ok right] at h
      cases h

theorem On.under (step : Value.Step i x y u w) (h : v.On u w) : (v.under i).On x y :=
  ⟨.step step h.1, h.2⟩

/-- **Visits in two values**: at the top, or inside behind a step. -/
theorem on_iff : v.On x y ↔
    (x = .nested v.left ∧ y = .nested v.right ∧ v.spot = [v.index] ∧
      v.left.type.accessors[v.index]? = some v.accessor) ∨
    ∃ (i : Nat) (u w : Value) (v' : Visit), Value.Step i x y u w ∧ v'.On u w ∧ v = v'.under i := by
  constructor
  · rintro ⟨leads, own⟩
    obtain ⟨place, index, left, right, accessor⟩ := v
    cases leads with
    | here => exact .inl ⟨rfl, rfl, rfl, own⟩
    | step first rest =>
      exact .inr ⟨_, _, _, ⟨_, index, left, right, accessor⟩, first, ⟨rest, own⟩, rfl⟩
  · rintro (⟨rfl, rfl, spot, own⟩ | ⟨i, u, w, v', step, on, rfl⟩)
    · have place : v.place = [] := by simpa [Visit.spot] using spot
      exact ⟨place ▸ .here _ _, own⟩
    · exact on.under step

/-- A visit starts with one of the steps that can be taken. -/
theorem On.lt_width {q : Place} (h : v.On x y) (spot : v.spot = i :: q) : i < x.width := by
  rcases on_iff.1 h with ⟨rfl, -, top, own⟩ | ⟨j, u, w, v', step, -, rfl⟩
  · rw [top] at spot
    cases spot
    exact (List.getElem?_eq_some_iff.1 own).1
  · cases spot
    exact step.lt_width

/-- A visit that takes the step has two values. -/
theorem On.answered_of_step (on : v.On x y) (step : Value.Step i x y u w) (spot : v.spot = [i]) :
    v.Answered := by
  rcases on_iff.1 on with ⟨rfl, rfl, top, own⟩ | ⟨j, u, w, v', -, -, rfl⟩
  · rw [top] at spot
    cases spot
    cases step with
    | accessor own' left right =>
      cases own.symm.trans own'
      exact ⟨_, _, left, right⟩
  · exact absurd (List.cons.inj spot).2 v'.spot_ne_nil

end Visit

namespace Value

/-! ### What is read in a region -/

/-- The events are those of the visits at the places of a region, each visit once and in the order
of places. -/
def Reads (x y : Value) (R : Place → Prop) (t : List Event) : Prop :=
  ∃ vs : List Visit, vs.Pairwise (fun v v' ↦ v.spot < v'.spot) ∧
    (∀ v, v ∈ vs ↔ v.On x y ∧ R v.spot) ∧ t = vs.flatMap fun v ↦ v.ask.trace

variable {x y u w : Value} {i : Nat} {P Q : Place → Prop} {t t' : List Event}

namespace Reads

theorem congr (h : Reads x y P t) (iff : ∀ v : Visit, v.On x y → (P v.spot ↔ Q v.spot)) :
    Reads x y Q t := by
  obtain ⟨vs, sorted, mem, rfl⟩ := h
  exact ⟨vs, sorted, fun v ↦ (mem v).trans (and_congr_right (iff v)), rfl⟩

theorem none (h : ∀ v : Visit, v.On x y → ¬P v.spot) : Reads x y P [] :=
  ⟨[], .nil, fun v ↦ ⟨nofun, fun ⟨on, p⟩ ↦ absurd p (h v on)⟩, rfl⟩

/-- What is read in one region and then in a later one. -/
theorem append (h : Reads x y P t) (h' : Reads x y Q t') (before : ∀ p q, P p → Q q → p < q) :
    Reads x y (fun p ↦ P p ∨ Q p) (t ++ t') := by
  obtain ⟨vs, sorted, mem, rfl⟩ := h
  obtain ⟨vs', sorted', mem', rfl⟩ := h'
  refine ⟨vs ++ vs', List.pairwise_append.2 ⟨sorted, sorted', fun v hv v' hv' ↦ ?_⟩, fun v ↦ ?_, ?_⟩
  · exact before _ _ ((mem v).1 hv).2 ((mem' v').1 hv').2
  · rw [List.mem_append, mem, mem', and_or_left]
  · rw [List.flatMap_append]

/-- The visit of one accessor at the top. -/
theorem here {l r : Description} {a : Accessor} (own : l.type.accessors[i]? = some a) :
    Reads (.nested l) (.nested r) (· = [i]) (Visit.ask ⟨[], i, l, r, a⟩).trace := by
  refine ⟨[⟨[], i, l, r, a⟩], List.pairwise_singleton _ _, fun v ↦ ?_, by simp⟩
  rw [List.mem_singleton]
  constructor
  · rintro rfl
    exact ⟨⟨.here _ _, own⟩, rfl⟩
  · rintro ⟨⟨leads, own'⟩, spot⟩
    obtain ⟨place, index, left, right, accessor⟩ := v
    obtain ⟨rfl, rfl⟩ : place = [] ∧ index = i := by
      simpa [Visit.spot, List.append_eq_singleton_iff] using spot
    obtain ⟨hl, hr⟩ := leads_nil_iff.1 leads
    cases hl
    cases hr
    cases own.symm.trans own'
    rfl

/-- What is read behind a step, seen from outside. -/
theorem under (step : Step i x y u w) (h : Reads u w P t) :
    Reads x y (fun p ↦ ∃ q, p = i :: q ∧ q ≠ [] ∧ P q) t := by
  obtain ⟨vs, sorted, mem, rfl⟩ := h
  refine ⟨vs.map (Visit.under i), ?_, fun v ↦ ?_, by simp [List.flatMap_map]⟩
  · rw [List.pairwise_map]
    refine sorted.imp fun h ↦ ?_
    simpa using h
  · rw [List.mem_map]
    constructor
    · rintro ⟨v, hv, rfl⟩
      obtain ⟨on, p⟩ := (mem v).1 hv
      exact ⟨on.under step, v.spot, rfl, v.spot_ne_nil, p⟩
    · rintro ⟨on, q, spot, ne, p⟩
      rcases Visit.on_iff.1 on with ⟨-, -, top, -⟩ | ⟨j, u', w', v', step', on', rfl⟩
      · rw [top] at spot
        cases spot
        exact absurd rfl ne
      · rw [Visit.spot_under] at spot
        cases spot
        obtain ⟨rfl, rfl⟩ := step.unique step'
        exact ⟨v', (mem v').2 ⟨on', p⟩, rfl⟩

/-- What is read at a step itself, and then behind it. -/
theorem append_under (lead : Reads x y (· = [i]) t) (step : Step i x y u w) (h : Reads u w P t') :
    Reads x y (fun p ↦ p = [i] ∨ ∃ q, p = i :: q ∧ q ≠ [] ∧ P q) (t ++ t') := by
  refine lead.append (h.under step) ?_
  rintro _ _ rfl ⟨q, rfl, ne, -⟩
  obtain ⟨j, q, rfl⟩ := List.exists_cons_of_ne_nil ne
  simp

/-- Nothing is visited between an array and its elements. -/
theorem element {xs ys : List Value} : Reads (array xs) (array ys) (· = [i]) [] := by
  refine .none fun v on spot ↦ ?_
  rcases Visit.on_iff.1 on with ⟨top, -⟩ | ⟨j, u, w, v', -, -, rfl⟩
  · cases top
  · exact absurd (List.cons.inj spot).2 v'.spot_ne_nil

end Reads

end Value

end Annotations
