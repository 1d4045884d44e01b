import Annotations.Proofs.Survey

/-!
# What a limit does

A limit on nesting is meant to stop the recursions on annotations that are nested too deeply, and to
do nothing else.

* **It hides answers but changes none** (`hashWithin_cutOff`, `detachWithin_cutOff`,
  `equalWithin_cutOff`). An outcome under a limit is the report of that limit, or it is the outcome
  under every greater limit too; this holds also where accessors fail. All that is used of the
  recursions is that they are sequences of readings (`CutOff.bind`).
* **It is exact** (`surveyWithin_failsExactly`). If all accessors that can be reached can be read,
  then a limit of `n` is reported exactly when there is a chain of `n + 1` annotations, each
  enclosed in the one before (`HasChain`). An array may stand between two links of the chain, and
  adds none. It is enough to prove this of the survey, which ends as the three recursions do.
-/

namespace Annotations

/-! ### Outcomes under two limits -/

section CutOff

variable {α β : Type} {limit : Nat}

/-- The first outcome is the report of the limit, or else the second outcome. -/
def CutOff (limit : Nat) (r s : Except ReadError α) : Prop :=
  r = .error (.recursionLimit limit) ∨ r = s

theorem CutOff.refl (r : Except ReadError α) : CutOff limit r r :=
  .inr rfl

/-- A sequence is cut off at most where one of its parts is. -/
theorem CutOff.bind {x y : Eval α} {f g : α → Eval β} (first : CutOff limit x.result y.result)
    (second : ∀ a, CutOff limit (f a).result (g a).result) :
    CutOff limit (x >>= f).result (y >>= g).result := by
  rcases first with cut | same
  · exact .inl (Eval.result_bind_of_eq_error cut f)
  · cases hx : x.result with
    | error e =>
      rw [Eval.result_bind_of_eq_error hx, Eval.result_bind_of_eq_error (same ▸ hx)]
      exact .refl _
    | ok a =>
      rw [Eval.result_bind_of_eq_ok hx, Eval.result_bind_of_eq_ok (same ▸ hx)]
      exact second a

end CutOff

/-! ### Hashing -/

section Hashing

variable {limit : Nat}

private theorem Value.hashAllBy_cutOff {f g : Description → Eval UInt64} {vs : List Value}
    (h : ∀ v ∈ vs, CutOff limit (hashBy f v).result (hashBy g v).result) (n : UInt64) :
    CutOff limit (hashAllBy f n vs).result (hashAllBy g n vs).result := by
  induction vs generalizing n with
  | nil => exact .refl _
  | cons v vs ih =>
    obtain ⟨first, rest⟩ := List.forall_mem_cons.1 h
    rw [hashAllBy, hashAllBy]
    exact .bind first fun m ↦ ih rest _

theorem Value.hashBy_cutOff {f g : Description → Eval UInt64}
    (inner : ∀ d, CutOff limit (f d).result (g d).result) (v : Value) :
    CutOff limit (hashBy f v).result (hashBy g v).result := by
  induction v using array_induction with
  | other v hv =>
    cases v with
    | nested d => exact inner d
    | array vs => exact absurd rfl (hv vs)
    | _ => exact .refl _
  | array vs ih => exact hashAllBy_cutOff ih 1

namespace Description

private theorem hashOn_cutOff {f g : Value → Eval UInt64}
    (inside : ∀ v, CutOff limit (f v).result (g v).result) (d : Description) (as : List Accessor)
    (n : UInt64) : CutOff limit (hashOn f d n as).result (hashOn g d n as).result := by
  induction as generalizing n with
  | nil => exact .refl _
  | cons a as ih =>
    rw [hashOn, hashOn]
    exact .bind (.refl _) fun v ↦ .bind (inside v) fun m ↦ ih _

/-- **A hash is hidden or the same** when fewer levels may be entered. -/
theorem hashWithin_cutOff {limit' room room' : Nat} (enough : room ≤ room') (d : Description) :
    CutOff limit (hashWithin limit room d).result (hashWithin limit' room' d).result := by
  induction room generalizing room' d with
  | zero => exact .inl rfl
  | succ room ih =>
    obtain ⟨room', rfl⟩ := Nat.exists_eq_succ_of_ne_zero (by omega : room' ≠ 0)
    have inner d : CutOff limit (hashWithin limit room d).result
        (hashWithin limit' room' d).result := ih (by omega) d
    exact hashOn_cutOff (Value.hashBy_cutOff inner) d _ 0

end Description

end Hashing

/-! ### Detaching -/

section Detaching

variable {limit : Nat}

private theorem Value.detachAllBy_cutOff {f g : Description → Eval Stated} {vs : List Value}
    (h : ∀ v ∈ vs, CutOff limit (detachBy f v).result (detachBy g v).result) :
    CutOff limit (detachAllBy f vs).result (detachAllBy g vs).result := by
  induction vs with
  | nil => exact .refl _
  | cons v vs ih =>
    obtain ⟨first, rest⟩ := List.forall_mem_cons.1 h
    rw [detachAllBy, detachAllBy]
    exact .bind first fun w ↦ .bind (ih rest) fun ws ↦ .refl _

theorem Value.detachBy_cutOff {f g : Description → Eval Stated}
    (inner : ∀ d, CutOff limit (f d).result (g d).result) (v : Value) :
    CutOff limit (detachBy f v).result (detachBy g v).result := by
  induction v using array_induction with
  | other v hv =>
    cases v with
    | nested d => exact .bind (inner d) fun s ↦ .refl _
    | array vs => exact absurd rfl (hv vs)
    | _ => exact .refl _
  | array vs ih => exact .bind (detachAllBy_cutOff ih) fun ws ↦ .refl _

namespace Description

private theorem detachOn_cutOff {f g : Value → Eval Value}
    (inside : ∀ v, CutOff limit (f v).result (g v).result) (d : Description) (as : List Accessor) :
    CutOff limit (detachOn f d as).result (detachOn g d as).result := by
  induction as with
  | nil => exact .refl _
  | cons a as ih =>
    rw [detachOn, detachOn]
    exact .bind (.refl _) fun v ↦ .bind (inside v) fun w ↦ .bind ih fun es ↦ .refl _

/-- **A stated annotation is hidden or the same** when fewer levels may be entered. -/
theorem detachWithin_cutOff {limit' room room' : Nat} (enough : room ≤ room') (d : Description) :
    CutOff limit (detachWithin limit room d).result (detachWithin limit' room' d).result := by
  induction room generalizing room' d with
  | zero => exact .inl rfl
  | succ room ih =>
    obtain ⟨room', rfl⟩ := Nat.exists_eq_succ_of_ne_zero (by omega : room' ≠ 0)
    have inner d : CutOff limit (detachWithin limit room d).result
        (detachWithin limit' room' d).result := ih (by omega) d
    exact .bind (detachOn_cutOff (Value.detachBy_cutOff inner) d _) fun es ↦ .refl _

end Description

end Detaching

/-! ### Comparing -/

section Comparing

variable {limit : Nat}

private theorem Value.allEqualBy_cutOff {f g : Description → Description → Eval Bool}
    {vs : List Value}
    (h : ∀ v ∈ vs, ∀ w, CutOff limit (equalBy f v w).result (equalBy g v w).result)
    (ws : List Value) : CutOff limit (allEqualBy f vs ws).result (allEqualBy g vs ws).result := by
  induction vs generalizing ws with
  | nil =>
    rw [allEqualBy, allEqualBy]
    · exact .refl _
    · simp
    · simp
  | cons v vs ih =>
    obtain ⟨first, rest⟩ := List.forall_mem_cons.1 h
    cases ws with
    | nil =>
      rw [allEqualBy, allEqualBy]
      · exact .refl _
      · simp
      · simp
    | cons w ws =>
      rw [allEqualBy, allEqualBy]
      refine .bind (first w) fun b ↦ ?_
      cases b with
      | false => exact .refl _
      | true => exact ih rest ws

theorem Value.equalBy_cutOff {f g : Description → Description → Eval Bool}
    (inner : ∀ d e, CutOff limit (f d e).result (g d e).result) (v w : Value) :
    CutOff limit (equalBy f v w).result (equalBy g v w).result := by
  induction v using array_induction generalizing w with
  | other v hv =>
    cases v with
    | nested d =>
      cases w with
      | nested e => exact inner d e
      | _ => exact .refl _
    | array vs => exact absurd rfl (hv vs)
    | _ => cases w <;> exact .refl _
  | array vs ih =>
    cases w with
    | array ws =>
      rw [equalBy, equalBy]
      split
      · exact allEqualBy_cutOff ih ws
      · exact .refl _
    | _ => exact .refl _

namespace Description

private theorem agreeOn_cutOff {f g : Value → Value → Eval Bool}
    (inside : ∀ v w, CutOff limit (f v w).result (g v w).result) (l r : Description)
    (as : List Accessor) : CutOff limit (agreeOn f l r as).result (agreeOn g l r as).result := by
  induction as with
  | nil => exact .refl _
  | cons a as ih =>
    rw [agreeOn, agreeOn]
    refine .bind (.refl _) fun x ↦ .bind (.refl _) fun y ↦ .bind (inside x y) fun b ↦ ?_
    cases b with
    | false => exact .refl _
    | true => exact ih

/-- **The answer of a comparison is hidden or the same** when fewer levels may be entered. -/
theorem equalWithin_cutOff {limit' room room' : Nat} (enough : room ≤ room') (l r : Description) :
    CutOff limit (equalWithin limit room l r).result (equalWithin limit' room' l r).result := by
  induction room generalizing room' l r with
  | zero => exact .inl rfl
  | succ room ih =>
    obtain ⟨room', rfl⟩ := Nat.exists_eq_succ_of_ne_zero (by omega : room' ≠ 0)
    have inner l r : CutOff limit (equalWithin limit room l r).result
        (equalWithin limit' room' l r).result := ih (by omega) l r
    rw [equalWithin, equalWithin]
    split
    · exact agreeOn_cutOff (Value.equalBy_cutOff inner) l r _
    · exact .refl _

end Description

end Comparing

/-! ### Chains -/

namespace Description

variable {d : Description}

/-- There is a chain of `n + 1` annotations that starts with this one and in which each occurs in a
value that the one before it reports, directly or inside of arrays. -/
def HasChain (d : Description) (n : Nat) : Prop :=
  ∃ ds : List Description, ds.length = n ∧ (d :: ds).IsChain Encloses

theorem hasChain_zero (d : Description) : d.HasChain 0 :=
  ⟨[], rfl, .singleton d⟩

theorem hasChain_succ_iff {n : Nat} :
    d.HasChain (n + 1) ↔ ∃ e, d.Encloses e ∧ e.HasChain n := by
  constructor
  · rintro ⟨ds, length, chain⟩
    cases ds with
    | nil => cases length
    | cons e ds =>
      obtain ⟨encloses, rest⟩ := List.isChain_cons_cons.1 chain
      exact ⟨e, encloses, ds, by simpa using length, rest⟩
  · rintro ⟨e, encloses, ds, length, chain⟩
    exact ⟨e :: ds, by simpa using length, .cons_cons encloses chain⟩

/-- The type of the annotation owns its accessors, and each of them can be read. -/
structure Readable (d : Description) : Prop where
  owned : d.type.Owned
  answers : ∀ a ∈ d.type.accessors, ∃ v, (d.get a.handle).result = .ok v

/-- An annotation of which all values are known can be read. -/
theorem readable_of_values (vs : List Value) (owned : d.type.Owned)
    (reported : d.type.accessors.map (fun a ↦ (d.get a.handle).result) = vs.map .ok) :
    d.Readable := by
  refine ⟨owned, fun a ha ↦ ?_⟩
  obtain ⟨v, -, read⟩ := mem_of_values reported ha
  exact ⟨v, read⟩

end Description

/-! ### Surveys under a limit -/

namespace Eval

variable {α β : Type} {e : ReadError} {P Q : Prop}

/-- The reading ends in the error if `P` holds, and without an error if it does not. -/
structure FailsExactly (e : ReadError) (P : Prop) (x : Eval Unit) : Prop where
  fails : P → x.result = .error e
  ends : ¬P → x.result = .ok ()

namespace FailsExactly

theorem congr {x : Eval Unit} (h : FailsExactly e P x) (iff : P ↔ Q) : FailsExactly e Q x :=
  ⟨fun q ↦ h.fails (iff.2 q), fun q ↦ h.ends fun p ↦ q (iff.1 p)⟩

/-- Before the reading another one may stand that has an answer. -/
theorem after {x : Eval α} {a : α} {f : α → Eval Unit} (answer : x.result = .ok a)
    (h : FailsExactly e P (f a)) : FailsExactly e P (x >>= f) := by
  constructor
  · intro p
    rw [result_bind_of_eq_ok answer, h.fails p]
  · intro p
    rw [result_bind_of_eq_ok answer, h.ends p]

/-- Of readings that can only fail in one way, a list fails exactly when one of its members does. -/
theorem forM {as : List α} {f : α → Eval Unit} {P : α → Prop}
    (h : ∀ a ∈ as, FailsExactly e (P a) (f a)) :
    FailsExactly e (∃ a ∈ as, P a) (ForM.forM as f) := by
  induction as with
  | nil => exact ⟨by simp, fun _ ↦ rfl⟩
  | cons a as ih =>
    obtain ⟨first, rest⟩ := List.forall_mem_cons.1 h
    rw [List.forM_cons]
    by_cases p : P a
    · exact ⟨fun _ ↦ result_bind_of_eq_error (first.fails p) _,
        fun none ↦ absurd ⟨a, List.mem_cons_self, p⟩ none⟩
    · refine congr (after (first.ends p) (ih rest)) ?_
      simp [p]

end FailsExactly

end Eval

namespace Description

variable {d : Description}

/-- **A survey fails exactly at the end of a chain**, when all that can be reached can be read. -/
theorem surveyWithin_failsExactly (readable : d.Everywhere Readable) (limit room : Nat) :
    Eval.FailsExactly (.recursionLimit limit) (d.HasChain room) (surveyWithin limit room d) := by
  induction room generalizing d with
  | zero => exact ⟨fun _ ↦ rfl, fun none ↦ absurd d.hasChain_zero none⟩
  | succ room ih =>
    have slots : ∀ a ∈ d.type.accessors, Eval.FailsExactly (.recursionLimit limit)
        (∃ v, (d.get a.handle).result = .ok v ∧ ∃ e ∈ v.held, e.HasChain room)
        (d.get a.handle >>= fun v ↦ forM v.held (surveyWithin limit room)) := by
      intro a ha
      obtain ⟨v, hv⟩ := readable.self.answers a ha
      have inside : ∀ e ∈ v.held, Eval.FailsExactly (.recursionLimit limit) (e.HasChain room)
          (surveyWithin limit room e) := fun e he ↦
        ih (readable.value ⟨a, ha, hv⟩ e (Value.mem_held_iff.1 he))
      refine Eval.FailsExactly.congr (.after hv (.forM inside)) ?_
      simp [hv]
    refine Eval.FailsExactly.congr (.forM slots) ?_
    rw [hasChain_succ_iff]
    constructor
    · rintro ⟨a, ha, v, hv, e, he, chain⟩
      exact ⟨e, ⟨v, ⟨a, ha, hv⟩, Value.mem_held_iff.1 he⟩, chain⟩
    · rintro ⟨e, ⟨v, ⟨a, ha, hv⟩, holds⟩, chain⟩
      exact ⟨a, ha, v, hv, e, Value.mem_held_iff.2 holds, chain⟩

/-- Hashing, detaching and comparing with itself all end in the report of the limit. -/
def FailsAt (limit : Nat) (d : Description) : Prop :=
  (d.hash limit).result = .error (.recursionLimit limit) ∧
    (d.detach limit).result = .error (.recursionLimit limit) ∧
    (d.equal limit d).result = .error (.recursionLimit limit)

/-- Of an annotation that can be read all through, each of the three recursions reports the limit
exactly when there is a chain that is too long for it. -/
theorem reports_limit_iff (readable : d.Everywhere Readable) (limit : Nat) :
    ((d.hash limit).result = .error (.recursionLimit limit) ↔ d.HasChain limit) ∧
    ((d.detach limit).result = .error (.recursionLimit limit) ↔ d.HasChain limit) ∧
    ((d.equal limit d).result = .error (.recursionLimit limit) ↔ d.HasChain limit) := by
  have owned : d.Everywhere fun e ↦ e.type.Owned := readable.mono fun _ h ↦ h.owned
  obtain ⟨fails, ends⟩ := surveyWithin_failsExactly readable limit limit
  by_cases chain : d.HasChain limit
  · simpa only [chain, iff_true] using error_of_survey owned (fails chain)
  · obtain ⟨⟨n, hash⟩, ⟨s, detach⟩, equal⟩ := answers_of_survey owned (ends chain)
    simp [chain, hash, detach, equal]

/-! ### An endless annotation -/

/-- The endless annotation whose counter is at `n`. -/
def loopAt (n : Int32) : Description :=
  .ofInstance (.loop ⟨n⟩)

/-- An endless annotation encloses the next one, and nothing else. -/
theorem loopAt_encloses_iff {n : Int32} {e : Description} :
    (loopAt n).Encloses e ↔ e = loopAt (n + 1) := by
  have next : (loopAt n).Reports (.nested (loopAt (n + 1))) :=
    ⟨_, List.mem_cons_of_mem _ List.mem_cons_self, rfl⟩
  constructor
  · rintro ⟨v, ⟨a, ha, hv⟩, holds⟩
    rcases List.mem_cons.1 ha with rfl | ha
    · cases hv
      cases holds
    · obtain rfl := List.mem_singleton.1 ha
      cases hv
      exact Value.holds_nested_iff.1 holds
  · rintro rfl
    exact ⟨_, next, .nested _⟩

theorem readable_loopAt (n : Int32) : (loopAt n).Everywhere Readable := by
  have regular : Loop.liveType.Regular := LiveType.regular_ofMethods (by decide)
  refine everywhere_of_closed (Q := fun d ↦ ∃ m, d = loopAt m) ?_ ?_ ⟨n, rfl⟩
  · rintro _ e ⟨m, rfl⟩ encloses
    exact ⟨m + 1, loopAt_encloses_iff.1 encloses⟩
  · rintro _ ⟨m, rfl⟩
    exact readable_of_values [.int m, .nested (loopAt (m + 1))] regular.owned_describe rfl

theorem hasChain_loopAt (n : Int32) (k : Nat) : (loopAt n).HasChain k := by
  induction k generalizing n with
  | zero => exact hasChain_zero _
  | succ k ih => exact hasChain_succ_iff.2 ⟨loopAt (n + 1), loopAt_encloses_iff.2 rfl, ih (n + 1)⟩

/-! ### The limit -/

/-- **The limit is exact, and only hides answers.**

* Of an annotation that can be read all through, hashing, detaching and comparing with itself report
  a limit exactly when there is a chain that has one annotation more than the limit says. The
  endless annotations of the catalogue are such annotations, and report every limit.
* Whatever fails in an annotation, or in two that are compared: under a smaller limit an outcome is
  the report of that limit, or it is the outcome under the greater limit. -/
theorem limit_exact (limit : Nat) :
    (∀ d : Description, d.Everywhere Readable →
      ((d.hash limit).result = .error (.recursionLimit limit) ↔ d.HasChain limit) ∧
      ((d.detach limit).result = .error (.recursionLimit limit) ↔ d.HasChain limit) ∧
      ((d.equal limit d).result = .error (.recursionLimit limit) ↔ d.HasChain limit)) ∧
    (∀ n : Int32, (loopAt n).FailsAt limit) ∧
    ∀ limit', limit ≤ limit' →
      (∀ d : Description, CutOff limit (d.hash limit).result (d.hash limit').result ∧
        CutOff limit (d.detach limit).result (d.detach limit').result) ∧
      ∀ l r : Description, CutOff limit (l.equal limit r).result (l.equal limit' r).result := by
  refine ⟨fun d readable ↦ reports_limit_iff readable limit, fun n ↦ ?_, fun limit' enough ↦ ?_⟩
  · obtain ⟨hash, detach, equal⟩ := reports_limit_iff (readable_loopAt n) limit
    have chain := hasChain_loopAt n limit
    exact ⟨hash.2 chain, detach.2 chain, equal.2 chain⟩
  · exact ⟨fun d ↦ ⟨hashWithin_cutOff enough d, detachWithin_cutOff enough d⟩,
      fun l r ↦ equalWithin_cutOff enough l r⟩

theorem readable_livePair : Registry.livePair.Everywhere Readable := by
  have marker : (ofInstance (.marker ⟨7⟩)).Everywhere Readable := by
    have regular : Marker.liveType.Regular := LiveType.regular_ofMethods (by decide)
    exact everywhere_of_values [.int 7]
      (readable_of_values [.int 7] regular.owned_describe rfl) rfl (by simp)
  have regular : Registry.pairType.Regular := LiveType.regular_ofMethods (by decide)
  have values : Registry.livePair.type.accessors.map
      (fun a ↦ (Registry.livePair.get a.handle).result) =
        [Value.int 3, .nested (ofInstance (.marker ⟨7⟩))].map .ok := rfl
  exact everywhere_of_values _ (readable_of_values _ regular.owned_describe values) values
    (by simp [marker])

/-- A pair and its marker are a chain of two, which a limit of one does not let through. -/
theorem limit_exact_pair :
    Registry.livePair.Everywhere Readable ∧
    (Registry.livePair.hash 1).result = .error (.recursionLimit 1) ∧
    Registry.livePair.HasChain 1 ∧ ¬Registry.livePair.HasChain 2 ∧
    CutOff 1 (Registry.livePair.hash 1).result (Registry.livePair.hash 2).result := by
  have one := (limit_exact 1).1 Registry.livePair readable_livePair
  have two := (limit_exact 2).1 Registry.livePair readable_livePair
  have short : (Registry.livePair.equal 2 Registry.livePair).result = .ok true := rfl
  refine ⟨readable_livePair, rfl, one.1.1 rfl, fun chain ↦ ?_,
    (((limit_exact 1).2.2 2 (by omega)).1 Registry.livePair).1⟩
  exact absurd (short.symm.trans (two.2.2.2 chain)) (by simp)

end Description

end Annotations
