import Annotations.Proofs.HashSum
import Annotations.Proofs.Visits

/-!
# What an outcome of a comparison rests on

A comparison goes through the places of two annotations in order, and visits the accessors that
both are asked for (`Visit`). Every outcome has its grounds at some place (`Value.Grounds`):

* `true` says that at no place the two sides differ (`Value.Differs`), and that every visit has two
  values;
* `false` is grounded on a place where they differ;
* an error is that of a visit, or the report of the limit at a place that holds two annotations.

And the comparison ends there: what it did up to then are the visits that are not after that place,
all of them and in order (`Value.Reads`). The proof follows the recursion. Grounds are moved
outwards along a step (`Grounds.under`), and joined from left to right (`Grounds.andThen`); the
regions of places that they speak of keep the visits apart.
-/

namespace Annotations

/-! ### Differences -/

theorem Binary32.eq_iff_bits {x y : Binary32} : x = y ↔ x.bits = y.bits := by
  cases x
  cases y
  simp

theorem Binary64.eq_iff_bits {x y : Binary64} : x = y ↔ x.bits = y.bits := by
  cases x
  cases y
  simp

/-- The two values differ at the top: in their category, in what a scalar, a type or a constant is,
in the length of an array, or in what the types of two annotations declare. -/
def Value.Differs : Value → Value → Prop
  | .boolean x, .boolean y => x ≠ y
  | .byte x, .byte y => x ≠ y
  | .char x, .char y => x ≠ y
  | .short x, .short y => x ≠ y
  | .int x, .int y => x ≠ y
  | .long x, .long y => x ≠ y
  | .float x, .float y => x.bits ≠ y.bits
  | .double x, .double y => x.bits ≠ y.bits
  | .string x, .string y => x ≠ y
  | .type x, .type y => x.name ≠ y.name
  | .constant x, .constant y => x.typeName ≠ y.typeName ∨ x.name ≠ y.name
  | .array xs, .array ys => xs.length ≠ ys.length
  | .nested l, .nested r =>
    l.typeName ≠ r.typeName ∨ l.type.accessors.length ≠ r.type.accessors.length ∨
      ∃ a ∈ l.type.accessors, r.type.declares a.handle = false
  -- Values of different categories.
  | _, _ => True

/-- Annotations differ at the top when their types are not comparable. -/
theorem Value.differs_nested_iff {l r : Description} :
    Differs (.nested l) (.nested r) ↔ l.type.comparable r.type = false := by
  simp only [Differs, TypeDecl.comparable, TypeDecl.sameAccessors, Description.typeName,
    Bool.and_eq_false_iff, beq_eq_false_iff_ne, List.all_eq_false, Bool.not_eq_true]

namespace Value

variable {x y u w : Value} {i k : Nat} {P Q R : Place → Prop} {t t' : List Event}

/-- The places behind the `i`-th step. -/
def At (i : Nat) (p : Place) : Prop := ∃ q, p = i :: q

/-- The places behind a step from the `k`-th on. -/
def From (k : Nat) (p : Place) : Prop := ∃ i q, k ≤ i ∧ p = i :: q

/-! ### Grounds -/

/-- What an outcome of a comparison rests on, of which only the places in a region are taken into
account, and what the comparison does in it. -/
inductive Grounds (limit : Nat) (x y : Value) (R : Place → Prop) :
    Except ReadError Bool → List Event → Prop
  /-- At no place is there a difference, and all visits have two values. -/
  | same {t : List Event} (alike : ∀ p u w, R p → Leads x y p u w → ¬Differs u w)
    (answered : ∀ v : Visit, v.On x y → R v.spot → v.Answered) (reads : Reads x y R t) :
    Grounds limit x y R (.ok true) t
  /-- There is a difference at the place, and what is after it is not visited. -/
  | differ {p : Place} {u w : Value} {t : List Event} (inside : R p) (leads : Leads x y p u w)
    (differs : Differs u w) (reads : Reads x y (fun q ↦ R q ∧ ¬p < q) t) :
    Grounds limit x y R (.ok false) t
  /-- The visit fails, and what is after it is not visited. -/
  | failed {v : Visit} {e : ReadError} {t : List Event} (inside : R v.spot) (on : v.On x y)
    (fails : v.FailsWith e) (reads : Reads x y (fun q ↦ R q ∧ ¬v.spot < q) t) :
    Grounds limit x y R (.error e) t
  /-- The annotations at the place are nested too deeply, and what is after it is not visited. -/
  | tooDeep {p : Place} {l r : Description} {t : List Event} (inside : R p)
    (leads : Leads x y p (.nested l) (.nested r)) (reads : Reads x y (fun q ↦ R q ∧ ¬p < q) t) :
    Grounds limit x y R (.error (.recursionLimit limit)) t

/-! ### Grounds at the top -/

namespace Grounds

variable {limit : Nat} {r : Except ReadError Bool}

theorem congr (h : Grounds limit x y P r t) (iff : ∀ p, P p ↔ Q p) : Grounds limit x y Q r t := by
  obtain rfl : P = Q := funext fun p ↦ propext (iff p)
  exact h

/-- Values that differ at the top are told apart before anything is read. -/
theorem differ_here (h : Differs x y) : Grounds limit x y (fun _ ↦ True) (.ok false) [] :=
  .differ trivial (.here x y) h (.none fun v _ ⟨_, after⟩ ↦ after v.nil_lt_spot)

/-- Annotations that may not be entered are not read. -/
theorem tooDeep_here {d e : Description} :
    Grounds limit (.nested d) (.nested e) (fun _ ↦ True) (.error (.recursionLimit limit)) [] :=
  .tooDeep trivial (.here _ _) (.none fun v _ ⟨_, after⟩ ↦ after v.nil_lt_spot)

/-- Of values that do not differ at the top, everything is behind a step. -/
theorem top (h : Grounds limit x y (From 0) r t) (same : ¬Differs x y) :
    Grounds limit x y (fun _ ↦ True) r t := by
  have behind : ∀ v : Visit, From 0 v.spot := by
    intro v
    cases spot : v.spot with
    | nil => exact absurd spot v.spot_ne_nil
    | cons i q => exact ⟨i, q, Nat.zero_le i, rfl⟩
  cases h with
  | same alike answered reads =>
    refine .same (fun p u w _ leads ↦ ?_) (fun v on _ ↦ answered v on (behind v))
      (reads.congr fun v _ ↦ by simp [behind v])
    cases leads with
    | here => exact same
    | step first rest => exact alike _ u w ⟨_, _, Nat.zero_le _, rfl⟩ (.step first rest)
  | differ inside leads differs reads =>
    exact .differ trivial leads differs (reads.congr fun v _ ↦ by simp [behind v])
  | failed inside on fails reads =>
    exact .failed trivial on fails (reads.congr fun v _ ↦ by simp [behind v])
  | tooDeep inside leads reads =>
    exact .tooDeep trivial leads (reads.congr fun v _ ↦ by simp [behind v])

/-- Behind the last step there is nothing. -/
theorem nothing (h : x.width ≤ k) : Grounds limit x y (From k) (.ok true) [] := by
  refine .same ?_ ?_ (.none ?_)
  · rintro _ u w ⟨i, q, hk, rfl⟩ leads
    obtain ⟨_, _, step, -⟩ := leads_cons_iff.1 leads
    have := step.lt_width
    omega
  · rintro v on ⟨i, q, hk, spot⟩
    have := on.lt_width spot
    omega
  · rintro v on ⟨i, q, hk, spot⟩
    have := on.lt_width spot
    omega

/-! ### From inside to outside -/

/-- What is not after a place behind a step is the first visit of the step, or behind the step not
after that place. -/
private theorem at_and_not_lt_iff {p q : Place} : (At i q ∧ ¬i :: p < q) ↔
    q = [i] ∨ ∃ s, q = i :: s ∧ s ≠ [] ∧ (True ∧ ¬p < s) := by
  constructor
  · rintro ⟨⟨s, rfl⟩, after⟩
    rcases s with - | ⟨j, s⟩
    · exact .inl rfl
    · refine .inr ⟨j :: s, rfl, by simp, trivial, fun h ↦ after ?_⟩
      exact List.cons_lt_cons_iff.2 (.inr ⟨rfl, h⟩)
  · rintro (rfl | ⟨s, rfl, -, -, after⟩)
    · exact ⟨⟨[], rfl⟩, by simp⟩
    · refine ⟨⟨s, rfl⟩, fun h ↦ after ?_⟩
      simpa using h

/-- **Grounds behind a step are grounds outside of it**; the visit of the step comes first. -/
theorem under (step : Step i x y u w) (lead : Reads x y (· = [i]) t)
    (h : Grounds limit u w (fun _ ↦ True) r t') : Grounds limit x y (At i) r (t ++ t') := by
  cases h with
  | same alike answered reads =>
    refine .same ?_ ?_ ((lead.append_under step reads).congr fun v on ↦ ?_)
    · rintro _ s s' ⟨q, rfl⟩ leads
      exact alike q s s' trivial (step.leads_cons_iff.1 leads)
    · rintro v on ⟨q, spot⟩
      rcases Visit.on_iff.1 on with ⟨-, -, top, -⟩ | ⟨j, u', w', v', step', on', rfl⟩
      · refine on.answered_of_step step ?_
        rw [top] at spot ⊢
        cases spot
        rfl
      · cases spot
        obtain ⟨rfl, rfl⟩ := step.unique step'
        exact answered v' on' trivial
    · constructor
      · rintro (spot | ⟨q, spot, -, -⟩)
        · exact ⟨[], spot⟩
        · exact ⟨q, spot⟩
      · rintro ⟨q, spot⟩
        by_cases empty : q = []
        · exact .inl (empty ▸ spot)
        · exact .inr ⟨q, spot, empty, trivial⟩
  | @differ p _ _ _ _ leads differs reads =>
    exact .differ (p := i :: p) ⟨p, rfl⟩ (.step step leads) differs
      ((lead.append_under step reads).congr fun v _ ↦ at_and_not_lt_iff.symm)
  | @failed v _ _ _ on fails reads =>
    exact .failed (v := v.under i) ⟨v.spot, rfl⟩ (on.under step) fails
      ((lead.append_under step reads).congr fun v _ ↦ at_and_not_lt_iff.symm)
  | @tooDeep p _ _ _ _ leads reads =>
    exact .tooDeep (p := i :: p) ⟨p, rfl⟩ (.step step leads)
      ((lead.append_under step reads).congr fun v _ ↦ at_and_not_lt_iff.symm)

/-! ### From left to right -/

/-- Grounds in a later region, when there is no difference in the earlier one. -/
theorem join (before : ∀ p q, P p → Q q → p < q) (first : Grounds limit x y P (.ok true) t)
    (second : Grounds limit x y Q r t') :
    Grounds limit x y (fun p ↦ P p ∨ Q p) r (t ++ t') := by
  obtain ⟨alike, answered, reads⟩ := first
  -- All of the earlier region is before a place in the later one.
  have region : ∀ {p}, Q p → ∀ q, (P q ∨ Q q ∧ ¬p < q) ↔ ((P q ∨ Q q) ∧ ¬p < q) := by
    intro p hp q
    constructor
    · rintro (hq | ⟨hq, after⟩)
      · exact ⟨.inl hq, fun h ↦ List.lt_irrefl p (List.lt_trans h (before q p hq hp))⟩
      · exact ⟨.inr hq, after⟩
    · rintro ⟨hq | hq, after⟩
      · exact .inl hq
      · exact .inr ⟨hq, after⟩
  have reads_upto : ∀ {p}, Q p → Reads x y (fun q ↦ Q q ∧ ¬p < q) t' →
      Reads x y (fun q ↦ (P q ∨ Q q) ∧ ¬p < q) (t ++ t') := by
    intro p hp reads'
    have both := reads.append reads' fun q q' hq hq' ↦ before q q' hq hq'.1
    exact both.congr fun v _ ↦ region hp v.spot
  cases second with
  | same alike' answered' reads' =>
    refine .same ?_ ?_ (reads.append reads' before)
    · rintro p u w (hp | hp) leads
      · exact alike p u w hp leads
      · exact alike' p u w hp leads
    · rintro v on (hv | hv)
      · exact answered v on hv
      · exact answered' v on hv
  | differ inside leads differs reads' =>
    exact .differ (.inr inside) leads differs (reads_upto inside reads')
  | failed inside on fails reads' =>
    exact .failed (.inr inside) on fails (reads_upto inside reads')
  | tooDeep inside leads reads' =>
    exact .tooDeep (.inr inside) leads (reads_upto inside reads')

/-- Grounds in an earlier region that leave nothing to be asked in the later one. -/
theorem stop (before : ∀ p q, P p → Q q → p < q) (first : Grounds limit x y P r t)
    (ends : r ≠ .ok true) : Grounds limit x y (fun p ↦ P p ∨ Q p) r t := by
  -- All of the later region is after a place in the earlier one.
  have region : ∀ {p}, P p → ∀ q, (P q ∧ ¬p < q) ↔ ((P q ∨ Q q) ∧ ¬p < q) := by
    intro p hp q
    constructor
    · rintro ⟨hq, after⟩
      exact ⟨.inl hq, after⟩
    · rintro ⟨hq | hq, after⟩
      · exact ⟨hq, after⟩
      · exact absurd (before p q hp hq) after
  cases first with
  | same => exact absurd rfl ends
  | differ inside leads differs reads =>
    exact .differ (.inl inside) leads differs (reads.congr fun v _ ↦ region inside v.spot)
  | failed inside on fails reads =>
    exact .failed (.inl inside) on fails (reads.congr fun v _ ↦ region inside v.spot)
  | tooDeep inside leads reads =>
    exact .tooDeep (.inl inside) leads (reads.congr fun v _ ↦ region inside v.spot)

/-- **One comparison and then another**, if the first one finds no difference. -/
theorem andThen {c c' : Eval Bool} (before : ∀ p q, P p → Q q → p < q)
    (first : Grounds limit x y P c.result c.trace)
    (second : Grounds limit x y Q c'.result c'.trace) :
    Grounds limit x y (fun p ↦ P p ∨ Q p) (c >>= fun b ↦ if b then c' else pure false).result
      (c >>= fun b ↦ if b then c' else pure false).trace := by
  rw [Eval.trace_bind]
  cases h : c.result with
  | error e =>
    rw [Eval.result_bind_of_eq_error h]
    rw [h] at first
    simpa using first.stop before (by simp)
  | ok b =>
    rw [Eval.result_bind_of_eq_ok h]
    rw [h] at first
    cases b with
    | false => simpa using first.stop before (by simp)
    | true => exact join before first second

end Grounds

/-! ### The recursion -/

/-- The steps behind the `k`-th one, and those after it. -/
private theorem at_or_from_iff {p : Place} : (At k p ∨ From (k + 1) p) ↔ From k p := by
  constructor
  · rintro (⟨q, rfl⟩ | ⟨i, q, hk, rfl⟩)
    · exact ⟨k, q, Nat.le_refl k, rfl⟩
    · exact ⟨i, q, by omega, rfl⟩
  · rintro ⟨i, q, hk, rfl⟩
    by_cases h : i = k
    · exact .inl ⟨q, by rw [h]⟩
    · exact .inr ⟨i, q, by omega, rfl⟩

private theorem at_lt_from (p q : Place) (hp : At k p) (hq : From (k + 1) q) : p < q := by
  obtain ⟨p, rfl⟩ := hp
  obtain ⟨i, q, hk, rfl⟩ := hq
  exact List.cons_lt_cons_iff.2 (.inl (by omega))

section Recursion

variable {limit : Nat}

/-- The comparison has grounds, whatever it ends in. -/
def Grounded (limit : Nat) (f : Value → Value → Eval Bool) (x y : Value) : Prop :=
  Grounds limit x y (fun _ ↦ True) (f x y).result (f x y).trace

/-- Two values without steps are told apart by what they are. -/
private theorem grounds_leaf {b : Bool} (width : x.width = 0) (decides : b = true ↔ ¬Differs x y) :
    Grounds limit x y (fun _ ↦ True) (.ok b) [] := by
  cases b with
  | true => exact (Grounds.nothing (Nat.le_of_eq width)).top (decides.1 rfl)
  | false => exact .differ_here (by_contra fun same ↦ by simpa using decides.2 same)

private theorem of_drop_eq_cons {α : Type} {l as : List α} {a : α} (h : a :: as = l.drop k) :
    l[k]? = some a ∧ as = l.drop (k + 1) := by
  constructor
  · have head : (l.drop k)[0]? = l[k + 0]? := List.getElem?_drop
    rw [← h] at head
    simpa using head.symm
  · rw [← List.tail_drop, ← h, List.tail_cons]

/-- The `k`-th elements, and then the elements after them. -/
private theorem grounds_allEqualBy {f : Description → Description → Eval Bool} {xs ys : List Value}
    (length : xs.length = ys.length)
    (inside : ∀ (i : Nat) (x y : Value), xs[i]? = some x → ys[i]? = some y →
      Grounded limit (equalBy f) x y)
    {us ws : List Value} (hu : us = xs.drop k) (hw : ws = ys.drop k) :
    Grounds limit (array xs) (array ys) (From k) (allEqualBy f us ws).result
      (allEqualBy f us ws).trace := by
  induction us generalizing k ws with
  | nil =>
    have short : xs.length ≤ k := List.drop_eq_nil_iff.1 hu.symm
    have ends : Grounds limit (array xs) (array ys) (From k) (.ok true) [] := .nothing short
    simpa [allEqualBy] using ends
  | cons u us ih =>
    obtain ⟨left, hu⟩ := of_drop_eq_cons hu
    have short : k < ys.length := length ▸ (List.getElem?_eq_some_iff.1 left).1
    cases ws with
    | nil => exact absurd (List.drop_eq_nil_iff.1 hw.symm) (by omega)
    | cons w ws =>
      obtain ⟨right, hw⟩ := of_drop_eq_cons hw
      have first : Grounds limit (array xs) (array ys) (At k) (equalBy f u w).result
          (equalBy f u w).trace := .under (.element left right) Reads.element
        (inside k u w left right)
      rw [allEqualBy]
      exact (Grounds.andThen at_lt_from first (ih hu hw)).congr fun p ↦ at_or_from_iff

/-- The visit of one accessor, and the comparison of what it gives. -/
private theorem grounds_visit {f : Value → Value → Eval Bool} {l r : Description} {a : Accessor}
    (own : l.type.accessors[k]? = some a) (inside : ∀ x y, Grounded limit f x y) {c : Eval Bool}
    (hc : c = Visit.ask ⟨[], k, l, r, a⟩ >>= fun xy ↦ f xy.1 xy.2) :
    Grounds limit (nested l) (nested r) (At k) c.result c.trace := by
  subst hc
  rw [Eval.trace_bind]
  cases asked : (Visit.ask ⟨[], k, l, r, a⟩).result with
  | error e =>
    rw [Eval.result_bind_of_eq_error asked, List.append_nil]
    refine .failed (v := ⟨[], k, l, r, a⟩) ⟨[], rfl⟩ ⟨.here _ _, own⟩ (Visit.failsWith_of_ask asked)
      ((Reads.here own).congr fun v _ ↦ ?_)
    constructor
    · rintro spot
      rw [spot]
      exact ⟨⟨[], rfl⟩, List.lt_irrefl _⟩
    · rintro ⟨⟨q, spot⟩, after⟩
      rw [spot] at after ⊢
      rcases q with - | ⟨j, q⟩
      · rfl
      · exact absurd (List.cons_lt_cons_iff.2 (.inr ⟨rfl, List.nil_lt_cons j q⟩)) after
  | ok xy =>
    obtain ⟨left, right⟩ := Visit.ask_eq_ok_iff.1 asked
    rw [Eval.result_bind_of_eq_ok asked]
    exact .under (.accessor own left right) (.here own) (inside xy.1 xy.2)

/-- The `k`-th accessor, and then the accessors after it. -/
private theorem grounds_agreeOn {f : Value → Value → Eval Bool} {l r : Description}
    (inside : ∀ x y, Grounded limit f x y) {as : List Accessor}
    (ha : as = l.type.accessors.drop k) :
    Grounds limit (nested l) (nested r) (From k) (Description.agreeOn f l r as).result
      (Description.agreeOn f l r as).trace := by
  induction as generalizing k with
  | nil =>
    have short : l.type.accessors.length ≤ k := List.drop_eq_nil_iff.1 ha.symm
    exact .nothing short
  | cons a as ih =>
    obtain ⟨own, ha⟩ := of_drop_eq_cons ha
    have first := grounds_visit (r := r) own inside rfl
    have split : Description.agreeOn f l r (a :: as) =
        (Visit.ask ⟨[], k, l, r, a⟩ >>= fun xy ↦ f xy.1 xy.2) >>= fun b ↦
          if b then Description.agreeOn f l r as else pure false := by
      simp only [Description.agreeOn, Visit.ask, bind_assoc, pure_bind]
    rw [split]
    exact (Grounds.andThen at_lt_from first (ih ha)).congr fun p ↦ at_or_from_iff

/-- Values compared have grounds, if annotations have. -/
theorem grounded_equalBy {f : Description → Description → Eval Bool}
    (inner : ∀ d e, Grounds limit (nested d) (nested e) (fun _ ↦ True) (f d e).result (f d e).trace)
    (x y : Value) : Grounded limit (equalBy f) x y := by
  induction x using array_induction generalizing y with
  | other x hx =>
    cases x with
    | nested d =>
      cases y with
      | nested e => exact inner d e
      | _ => exact .differ_here trivial
    | array xs => exact absurd rfl (hx xs)
    | _ =>
      -- A scalar is compared by what it is, a type or a constant by its names.
      cases y <;> first
        | exact .differ_here trivial
        | exact grounds_leaf rfl (by
            simp [Differs, Binary32.eq_iff_bits, Binary64.eq_iff_bits, Constant.same_iff])
  | array xs ih =>
    cases y with
    | array ys =>
      rw [Grounded, equalBy]
      by_cases length : xs.length = ys.length
      · rw [if_pos length]
        refine Grounds.top (grounds_allEqualBy length ?_ rfl rfl) (not_not.2 length)
        exact fun i x y left _ ↦ ih x (List.mem_of_getElem? left) y
      · rw [if_neg length]
        exact .differ_here length
    | _ => exact .differ_here trivial

end Recursion

end Value

namespace Description

/-- **A comparison of annotations has grounds**, however many levels it may enter. -/
theorem grounded_equalWithin (limit room : Nat) (l r : Description) :
    Value.Grounds limit (.nested l) (.nested r) (fun _ ↦ True) (equalWithin limit room l r).result
      (equalWithin limit room l r).trace := by
  induction room generalizing l r with
  | zero => exact .tooDeep_here
  | succ room ih =>
    rw [equalWithin]
    by_cases comparable : l.type.comparable r.type = true
    · rw [if_pos comparable]
      refine Value.Grounds.top (Value.grounds_agreeOn (Value.grounded_equalBy ih) rfl) ?_
      rw [Value.differs_nested_iff, comparable]
      simp
    · rw [if_neg comparable]
      exact .differ_here (Value.differs_nested_iff.2 (by simpa using comparable))

/-- The comparison did what there is to read up to the place, and nothing after it. -/
def StopsAt (l r : Description) (p : Place) (t : List Event) : Prop :=
  Value.Reads (.nested l) (.nested r) (fun q ↦ ¬p < q) t

/-- **Every outcome of a comparison has its grounds.** Whatever the two annotations are, and
whatever fails in them, a comparison under a limit ends in one of these ways:

* in `true`: at no place the two sides differ, and no visit fails on either side;
* in `false`: they differ at a place;
* in an error: it is the error of one of the sides in a visit, or the report of the limit.

In the last two cases nothing is read after the place that decides, on either side: what the
comparison did is what the visits up to that place do, one after the other. -/
theorem grounds_of_equal (limit : Nat) (l r : Description) :
    ((l.equal limit r).result = .ok true →
      (∀ p x y, Value.Leads (.nested l) (.nested r) p x y → ¬x.Differs y) ∧
      ∀ v : Visit, v.On (.nested l) (.nested r) → v.Answered) ∧
    ((l.equal limit r).result = .ok false →
      ∃ p x y, Value.Leads (.nested l) (.nested r) p x y ∧ x.Differs y ∧
        StopsAt l r p (l.equal limit r).trace) ∧
    ∀ e, (l.equal limit r).result = .error e →
      (∃ v : Visit, v.On (.nested l) (.nested r) ∧ v.FailsWith e ∧
        StopsAt l r v.spot (l.equal limit r).trace) ∨
      e = .recursionLimit limit ∧ ∃ p d d', Value.Leads (.nested l) (.nested r) p (.nested d)
        (.nested d') ∧ StopsAt l r p (l.equal limit r).trace := by
  have grounds := grounded_equalWithin limit limit l r
  change Value.Grounds _ _ _ _ (l.equal limit r).result (l.equal limit r).trace at grounds
  generalize (l.equal limit r).result = result, (l.equal limit r).trace = t at grounds
  cases grounds with
  | same alike answered reads =>
    refine ⟨fun _ ↦ ⟨fun p x y ↦ alike p x y trivial, fun v on ↦ answered v on trivial⟩, ?_, ?_⟩
    · simp
    · simp
  | differ inside leads differs reads =>
    refine ⟨by simp, fun _ ↦ ⟨_, _, _, leads, differs, ?_⟩, by simp⟩
    exact reads.congr fun v _ ↦ by simp
  | failed inside on fails reads =>
    refine ⟨by simp, by simp, fun e he ↦ ?_⟩
    cases he
    exact .inl ⟨_, on, fails, reads.congr fun v _ ↦ by simp⟩
  | tooDeep inside leads reads =>
    refine ⟨by simp, by simp, fun e he ↦ ?_⟩
    cases he
    exact .inr ⟨rfl, _, _, _, leads, reads.congr fun v _ ↦ by simp⟩

/-- A broken annotation. -/
def broken : Description := .ofInstance (.broken ⟨⟩)

/-- The failure of a broken annotation. -/
def brokenFailure : ReadError :=
  .invocationFailure "com.example.Broken.value()" "value is not available"

/-- Two forms of a pair are found equal, a pair and a marker different, and two broken annotations
cannot be compared. -/
theorem grounds_of_equal_pair :
    ((Registry.livePair.equal 64 Registry.statedPair).result = .ok true ∧
      ∀ p x y, Value.Leads (.nested Registry.livePair) (.nested Registry.statedPair) p x y →
        ¬x.Differs y) ∧
    ((Registry.livePair.equal 64 Registry.statedMarker).result = .ok false ∧
      ∃ p x y, Value.Leads (.nested Registry.livePair) (.nested Registry.statedMarker) p x y ∧
        x.Differs y) ∧
    (broken.equal 64 broken).result = .error brokenFailure ∧
      ∃ v : Visit, v.On (.nested broken) (.nested broken) ∧ v.FailsWith brokenFailure := by
  refine ⟨⟨rfl, ((grounds_of_equal 64 _ _).1 rfl).1⟩, ⟨rfl, ?_⟩, rfl, ?_⟩
  · obtain ⟨p, x, y, leads, differs, -⟩ :=
      (grounds_of_equal 64 Registry.livePair Registry.statedMarker).2.1 rfl
    exact ⟨p, x, y, leads, differs⟩
  · obtain ⟨v, on, fails, -⟩ | ⟨limit, -⟩ :=
      (grounds_of_equal 64 broken broken).2.2 brokenFailure rfl
    · exact ⟨v, on, fails⟩
    · simp [brokenFailure] at limit

end Description

end Annotations
