import Annotations.Proofs.HashSum

/-!
# Surveys

Hashing an annotation, detaching it and comparing it with itself are three recursions with limits of
their own. What they have in common is the **survey** (`Description.surveyWithin`): it reads the
accessors in order, and after each of them surveys the annotations that occur in the value, and it
answers nothing.

* Without its answer, hashing is the survey, and so is detaching: they end in the same error or in
  none, and leave the same trace (`silent_hashWithin`, `silent_detachWithin`). Nothing is assumed of
  the annotation here, nor of the inspectors that its live parts are read with.
* A comparison with itself reads everything twice, so only its end is that of the survey
  (`result_equalWithin_self`). It counts on the accessors of a type being the type's own, as they
  are in every type that is drafted, described or read back.
-/

namespace Annotations

/-! ### Readings without their answers -/

namespace Eval

variable {α β : Type}

/-- The reading without its answer. -/
def silent (x : Eval α) : Eval Unit :=
  (fun _ ↦ ()) <$> x

@[simp] theorem result_silent (x : Eval α) : x.silent.result = x.result.map fun _ ↦ () :=
  result_map _ x

@[simp] theorem trace_silent (x : Eval α) : x.silent.trace = x.trace :=
  trace_map _ x

/-- Only the last answer of a sequence is lost. -/
theorem silent_bind (x : Eval α) (f : α → Eval β) :
    (x >>= f).silent = x >>= fun a ↦ (f a).silent :=
  map_bind _ x f

/-- What is made of the last answer is lost with it. -/
theorem silent_bind_pure (x : Eval α) (g : α → β) :
    (x >>= fun a ↦ pure (g a)).silent = x.silent := by
  rw [bind_pure_comp, silent, Functor.map_map]
  rfl

/-- Whether the first part of a sequence has an answer to lose makes no difference. -/
theorem bind_silent (x : Eval α) (y : Eval β) : (x.silent >>= fun _ ↦ y) = x >>= fun _ ↦ y :=
  bind_map_left ..

theorem result_eq_error_of_silent {x : Eval α} {e : ReadError} (h : x.silent.result = .error e) :
    x.result = .error e := by
  cases hx : x.result <;> simp_all [Except.map]

theorem exists_result_of_silent {x : Eval α} (h : x.silent.result = .ok ()) :
    ∃ a, x.result = .ok a := by
  cases hx : x.result <;> simp_all [Except.map]

end Eval

/-! ### The survey -/

namespace Value

mutual

/-- The annotations that occur in a value, in order. -/
def held : Value → List Description
  | nested d => [d]
  | array vs => heldAll vs
  | _ => []

/-- The annotations that occur in the values of a list, in order. -/
def heldAll : List Value → List Description
  | [] => []
  | v :: vs => held v ++ heldAll vs

end

theorem mem_heldAll_iff {d : Description} {vs : List Value} :
    d ∈ heldAll vs ↔ ∃ v ∈ vs, d ∈ v.held := by
  induction vs with
  | nil => simp [heldAll]
  | cons v vs ih => simp [heldAll, ih]

theorem mem_held_iff {d : Description} {v : Value} : d ∈ v.held ↔ v.Holds d := by
  induction v using array_induction with
  | other v hv =>
    cases v with
    | nested e => simp [held, holds_nested_iff]
    | array vs => exact absurd rfl (hv vs)
    | _ =>
      simp only [held, List.not_mem_nil, false_iff]
      rintro ⟨⟩
  | array vs ih =>
    rw [held, mem_heldAll_iff, holds_array_iff]
    constructor
    · rintro ⟨v, hv, hd⟩
      exact ⟨v, hv, (ih v hv).1 hd⟩
    · rintro ⟨v, hv, hd⟩
      exact ⟨v, hv, (ih v hv).2 hd⟩

end Value

namespace Description

/-- Reads all accessors of an annotation, and surveys the annotations in their values, of which
`room` levels may be entered. -/
def surveyWithin (limit : Nat) : (room : Nat) → Description → Eval Unit
  | 0, _ => throw (.recursionLimit limit)
  | room + 1, d =>
    forM d.type.accessors fun a ↦ do
      let v ← d.get a.handle
      forM v.held (surveyWithin limit room)

end Description

/-! ### Hashing -/

namespace Value

private theorem silent_hashAllBy {f : Description → Eval UInt64} {vs : List Value}
    (h : ∀ v ∈ vs, (hashBy f v).silent = forM v.held fun d ↦ (f d).silent) (n : UInt64) :
    (hashAllBy f n vs).silent = forM (heldAll vs) fun d ↦ (f d).silent := by
  induction vs generalizing n with
  | nil => rfl
  | cons v vs ih =>
    obtain ⟨first, rest⟩ := List.forall_mem_cons.1 h
    rw [hashAllBy, heldAll, List.forM_append, ← first, Eval.silent_bind]
    simp only [ih rest]
    rw [Eval.bind_silent]

/-- The hash of a value hashes the annotations in it, in order. -/
theorem silent_hashBy {f : Description → Eval UInt64} (v : Value) :
    (hashBy f v).silent = forM v.held fun d ↦ (f d).silent := by
  induction v using array_induction with
  | other v hv =>
    cases v with
    | nested d =>
      show (f d).silent = forM [d] fun d ↦ (f d).silent
      rw [List.forM_cons, List.forM_nil, bind_pure_unit]
    | array vs => exact absurd rfl (hv vs)
    | _ => rfl
  | array vs ih => exact silent_hashAllBy ih 1

end Value

namespace Description

private theorem silent_hashOn {f : Value → Eval UInt64} {g : Value → Eval Unit}
    (inside : ∀ v, (f v).silent = g v) (d : Description) (as : List Accessor) (n : UInt64) :
    (hashOn f d n as).silent = forM as fun a ↦ d.get a.handle >>= g := by
  induction as generalizing n with
  | nil => rfl
  | cons a as ih =>
    rw [hashOn, List.forM_cons, Eval.silent_bind, bind_assoc]
    congr 1
    funext v
    rw [Eval.silent_bind, ← inside, Eval.bind_silent]
    simp only [ih]

/-- **Hashing is the survey**, but for the hash. -/
theorem silent_hashWithin (limit room : Nat) (d : Description) :
    (hashWithin limit room d).silent = surveyWithin limit room d := by
  induction room generalizing d with
  | zero => rfl
  | succ room ih =>
    refine silent_hashOn (fun v ↦ ?_) d _ 0
    rw [Value.silent_hashBy]
    simp only [ih]

end Description

/-! ### Detaching -/

namespace Value

private theorem silent_detachAllBy {f : Description → Eval Stated} {vs : List Value}
    (h : ∀ v ∈ vs, (detachBy f v).silent = forM v.held fun d ↦ (f d).silent) :
    (detachAllBy f vs).silent = forM (heldAll vs) fun d ↦ (f d).silent := by
  induction vs with
  | nil => rfl
  | cons v vs ih =>
    obtain ⟨first, rest⟩ := List.forall_mem_cons.1 h
    rw [detachAllBy, heldAll, List.forM_append, ← first, Eval.silent_bind]
    simp only [Eval.silent_bind_pure, ih rest]
    rw [Eval.bind_silent]

/-- The detached value detaches the annotations in it, in order. -/
theorem silent_detachBy {f : Description → Eval Stated} (v : Value) :
    (detachBy f v).silent = forM v.held fun d ↦ (f d).silent := by
  induction v using array_induction with
  | other v hv =>
    cases v with
    | nested d =>
      rw [detachBy, Eval.silent_bind_pure, held, List.forM_cons, List.forM_nil, bind_pure_unit]
    | array vs => exact absurd rfl (hv vs)
    | _ => rfl
  | array vs ih => rw [detachBy, Eval.silent_bind_pure, held, silent_detachAllBy ih]

end Value

namespace Description

private theorem silent_detachOn {f : Value → Eval Value} {g : Value → Eval Unit}
    (inside : ∀ v, (f v).silent = g v) (d : Description) (as : List Accessor) :
    (detachOn f d as).silent = forM as fun a ↦ d.get a.handle >>= g := by
  induction as with
  | nil => rfl
  | cons a as ih =>
    rw [detachOn, List.forM_cons, Eval.silent_bind, bind_assoc]
    congr 1
    funext v
    rw [Eval.silent_bind, ← inside, Eval.bind_silent]
    simp only [Eval.silent_bind_pure, ih]

/-- **Detaching is the survey**, but for the stated annotation. -/
theorem silent_detachWithin (limit room : Nat) (d : Description) :
    (detachWithin limit room d).silent = surveyWithin limit room d := by
  induction room generalizing d with
  | zero => rfl
  | succ room ih =>
    rw [detachWithin, Eval.silent_bind_pure]
    refine silent_detachOn (fun v ↦ ?_) d _
    rw [Value.silent_detachBy]
    simp only [ih]

end Description

/-! ### Comparing an annotation with itself -/

namespace Value

variable {f : Description → Description → Eval Bool} {g : Description → Eval Unit}

private theorem result_allEqualBy_self {vs : List Value}
    (h : ∀ v ∈ vs, (equalBy f v v).result = (forM v.held g).result.map fun _ ↦ true) :
    (allEqualBy f vs vs).result = (forM (heldAll vs) g).result.map fun _ ↦ true := by
  induction vs with
  | nil => rfl
  | cons v vs ih =>
    obtain ⟨first, rest⟩ := List.forall_mem_cons.1 h
    rw [allEqualBy, heldAll, List.forM_append]
    cases held : (forM v.held g).result with
    | error e =>
      rw [held] at first
      rw [Eval.result_bind_of_eq_error first, Eval.result_bind_of_eq_error held]
      rfl
    | ok u =>
      rw [held] at first
      rw [Eval.result_bind_of_eq_ok first, Eval.result_bind_of_eq_ok held]
      exact ih rest

/-- A value is equal to itself if the annotations in it are, and else fails where they do. -/
theorem result_equalBy_self {v : Value}
    (h : ∀ d, v.Holds d → (f d d).result = (g d).result.map fun _ ↦ true) :
    (equalBy f v v).result = (forM v.held g).result.map fun _ ↦ true := by
  induction v using array_induction with
  | other v hv =>
    cases v with
    | nested d =>
      rw [equalBy, held, List.forM_cons, List.forM_nil, bind_pure_unit]
      exact h d (.nested d)
    | array vs => exact absurd rfl (hv vs)
    | _ => simp [equalBy, held, Constant.same, Except.map]
  | array vs ih =>
    rw [equalBy, if_pos rfl]
    exact result_allEqualBy_self fun v hv ↦ ih v hv fun d hd ↦ h d (.array hv hd)

end Value

namespace Description

private theorem result_agreeOn_self {f : Value → Value → Eval Bool} {g : Value → Eval Unit}
    {d : Description} {as : List Accessor} (own : as ⊆ d.type.accessors)
    (inside : ∀ v, d.Reports v → (f v v).result = (g v).result.map fun _ ↦ true) :
    (agreeOn f d d as).result =
      (forM as fun a ↦ d.get a.handle >>= g).result.map fun _ ↦ true := by
  induction as with
  | nil => rfl
  | cons a as ih =>
    obtain ⟨ha, own⟩ := List.cons_subset.1 own
    rw [agreeOn, List.forM_cons, bind_assoc]
    cases read : (d.get a.handle).result with
    | error e => rw [Eval.result_bind_of_eq_error read, Eval.result_bind_of_eq_error read]; rfl
    | ok v =>
      -- The second reading gives the same value again.
      rw [Eval.result_bind_of_eq_ok read, Eval.result_bind_of_eq_ok read,
        Eval.result_bind_of_eq_ok read]
      have same := inside v ⟨a, ha, read⟩
      cases survey : (g v).result with
      | error e =>
        rw [survey] at same
        rw [Eval.result_bind_of_eq_error same, Eval.result_bind_of_eq_error survey]
        rfl
      | ok u =>
        rw [survey] at same
        rw [Eval.result_bind_of_eq_ok same, Eval.result_bind_of_eq_ok survey]
        exact ih own

/-- **A comparison with itself ends as the survey does**, in `true` if there is no error. -/
theorem result_equalWithin_self {d : Description} (owned : d.Everywhere fun e ↦ e.type.Owned)
    (limit room : Nat) :
    (equalWithin limit room d d).result =
      (surveyWithin limit room d).result.map fun _ ↦ true := by
  induction room generalizing d with
  | zero => rfl
  | succ room ih =>
    rw [equalWithin, if_pos (TypeDecl.comparable_self owned.self)]
    refine result_agreeOn_self (List.Subset.refl _) fun v reports ↦ ?_
    exact Value.result_equalBy_self fun e he ↦ ih (owned.value reports e he)

/-- If a survey ends without an error, there are a hash and a stated annotation, and the annotation
is equal to itself. -/
theorem answers_of_survey {d : Description} (owned : d.Everywhere fun e ↦ e.type.Owned)
    {limit : Nat} (survey : (surveyWithin limit limit d).result = .ok ()) :
    (∃ n, (d.hash limit).result = .ok n) ∧ (∃ s, (d.detach limit).result = .ok s) ∧
      (d.equal limit d).result = .ok true := by
  have equal : (d.equal limit d).result = _ := result_equalWithin_self owned limit limit
  rw [survey] at equal
  exact ⟨Eval.exists_result_of_silent (silent_hashWithin limit limit d ▸ survey),
    Eval.exists_result_of_silent (silent_detachWithin limit limit d ▸ survey), equal⟩

/-- If a survey ends in an error, then hashing, detaching and comparing end in it too. -/
theorem error_of_survey {d : Description} (owned : d.Everywhere fun e ↦ e.type.Owned)
    {limit : Nat} {e : ReadError} (survey : (surveyWithin limit limit d).result = .error e) :
    (d.hash limit).result = .error e ∧ (d.detach limit).result = .error e ∧
      (d.equal limit d).result = .error e := by
  have equal : (d.equal limit d).result = _ := result_equalWithin_self owned limit limit
  rw [survey] at equal
  exact ⟨Eval.result_eq_error_of_silent (silent_hashWithin limit limit d ▸ survey),
    Eval.result_eq_error_of_silent (silent_detachWithin limit limit d ▸ survey), equal⟩

/-- **Hashing, detaching and comparing with itself end alike.** Whatever is in an annotation of
which all types own their accessors, and whatever its inspectors do to find methods, to call them
and to make values of what they give back: under a limit it has a hash, can be detached and is equal
to itself, or all three of these end in the same error. Hashing and detaching leave the same trace;
the notes of auditing inspectors are part of it. -/
theorem hash_detach_equal_agree {d : Description} (owned : d.Everywhere fun e ↦ e.type.Owned)
    (limit : Nat) :
    (((∃ n, (d.hash limit).result = .ok n) ∧ (∃ s, (d.detach limit).result = .ok s) ∧
        (d.equal limit d).result = .ok true) ∨
      ∃ e, (d.hash limit).result = .error e ∧ (d.detach limit).result = .error e ∧
        (d.equal limit d).result = .error e) ∧
    (d.hash limit).trace = (d.detach limit).trace := by
  have hash : (d.hash limit).silent = surveyWithin limit limit d := silent_hashWithin limit limit d
  have detach : (d.detach limit).silent = surveyWithin limit limit d :=
    silent_detachWithin limit limit d
  refine ⟨?_, by rw [← Eval.trace_silent, hash, ← detach, Eval.trace_silent]⟩
  cases survey : (surveyWithin limit limit d).result with
  | ok u => exact .inl (answers_of_survey owned survey)
  | error e => exact .inr ⟨e, error_of_survey owned survey⟩

/-! ### A refusal inside -/

/-- Takes notes of everything, and refuses the values of markers. -/
def auditor : Policy where
  audited := true
  refused := ["value"]
  failing := []
  aliases := []
  plainNested := false

/-- A marker that is read by the auditor. -/
def auditedMarker : Description :=
  .live ⟨.marker ⟨7⟩, auditor.inspector⟩

/-- A pair that is read by the auditor; so is the marker in it. -/
def auditedPair : Description :=
  .live ⟨.record Registry.pairType [], auditor.inspector⟩

theorem owned_auditedPair : auditedPair.Everywhere fun e ↦ e.type.Owned := by
  have marker : auditedMarker.Everywhere fun e ↦ e.type.Owned := by
    have regular : Marker.liveType.Regular := LiveType.regular_ofMethods (by decide)
    refine everywhere_iff.2 ⟨regular.owned_describe, fun v ⟨a, ha, hv⟩ ↦ ?_⟩
    -- The only accessor is refused, so that nothing is reported.
    obtain rfl := List.mem_singleton.1 ha
    cases hv
  have regular : Registry.pairType.Regular := LiveType.regular_ofMethods (by decide)
  exact everywhere_of_values [.int 3, .nested auditedMarker] regular.owned_describe rfl
    (by simp [marker])

/-! ### Values of one's own -/

/-- Makes values of its own: an annotation in an output is read on in the state before, and in the
first state only its type is given. Of every output it takes a note. -/
def fading (state : Nat) : Inspector where
  rules n :=
    { resolve := fun t h ↦ Eval.ofExcept (t.resolve h)
      invoke := LiveMethod.invoke
      normalize := fun output ↦
        { value :=
            match output, n with
            | .object o, 0 => .closed (.type o.type.describe)
            | .object o, n + 1 => .live o n
            | o, _ => .usual o
          trace := [.noted ("normalize " ++ output.tag)] }
      nested := none }
  state := state

/-- An annotation of an endless sort, which ends when the inspector's states do. -/
def fadingLoop (state : Nat) (depth : Int32) : Description :=
  .live ⟨.loop ⟨depth⟩, fading state⟩

theorem owned_fadingLoop (state : Nat) (depth : Int32) :
    (fadingLoop state depth).Everywhere fun e ↦ e.type.Owned := by
  have regular : Loop.liveType.Regular := LiveType.regular_ofMethods (by decide)
  induction state generalizing depth with
  | zero =>
    exact everywhere_of_values [.int depth, .type Loop.liveType.describe] regular.owned_describe rfl
      (by simp)
  | succ state ih =>
    exact everywhere_of_values [.int depth, .nested (fadingLoop state (depth + 1))]
      regular.owned_describe rfl (by simp [ih])

/-- The pair is read as far as the marker, and then the marker's value is refused. The loop is read
to its end under a limit of two. -/
theorem hash_detach_equal_agree_audited :
    auditedPair.Everywhere (fun e ↦ e.type.Owned) ∧
    (auditedPair.hash 64).result = .error (.accessDenied "com.example.Marker.value()") ∧
    (auditedPair.hash 64).notes =
      ["resolve com.example.Pair.weight() on com.example.Pair", "invoke com.example.Pair.weight()",
        "resolve com.example.Pair.marker() on com.example.Pair", "invoke com.example.Pair.marker()",
        "resolve com.example.Marker.value() on com.example.Marker",
        "invoke com.example.Marker.value()"] ∧
    (((∃ n, (auditedPair.hash 64).result = .ok n) ∧ (∃ s, (auditedPair.detach 64).result = .ok s) ∧
        (auditedPair.equal 64 auditedPair).result = .ok true) ∨
      ∃ e, (auditedPair.hash 64).result = .error e ∧ (auditedPair.detach 64).result = .error e ∧
        (auditedPair.equal 64 auditedPair).result = .error e) ∧
    (auditedPair.hash 64).trace = (auditedPair.detach 64).trace ∧
    (fadingLoop 1 0).Everywhere (fun e ↦ e.type.Owned) ∧
    (∃ n, ((fadingLoop 1 0).hash 2).result = .ok n) ∧
    (∃ s, ((fadingLoop 1 0).detach 2).result = .ok s) ∧
    ((fadingLoop 1 0).equal 2 (fadingLoop 1 0)).result = .ok true ∧
    ((fadingLoop 1 0).detach 2).notes =
      ["normalize Int", "normalize Annotation", "normalize Int", "normalize Annotation"] ∧
    ((fadingLoop 1 0).hash 2).trace = ((fadingLoop 1 0).detach 2).trace := by
  obtain ⟨refused, pairTraces⟩ := hash_detach_equal_agree owned_auditedPair 64
  obtain ⟨ends, loopTraces⟩ := hash_detach_equal_agree (owned_fadingLoop 1 0) 2
  refine ⟨owned_auditedPair, rfl, rfl, refused, pairTraces, owned_fadingLoop 1 0, ?_⟩
  rcases ends with ⟨hash, detach, equal⟩ | ⟨e, -, -, equal⟩
  · exact ⟨hash, detach, equal, rfl, loopTraces⟩
  · cases equal

end Description

end Annotations
