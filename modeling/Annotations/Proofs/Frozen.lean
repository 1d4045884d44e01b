import Annotations.Proofs.Parts
import Annotations.Proofs.Survey
import Annotations.Written.Write

/-!
# What is frozen

Before a thing is written, it is gone through, and each live annotation in it is detached.

* **Freezing is detaching the live annotations**, one after the other, but for what comes of it:
  freezing a part freezes the parts that it consists of directly, in order, and a live part is
  detached under the full limit (`Part.freezing_eq_forM`).
* Where there is no live annotation, there is nothing to freeze (`Part.freezes_of_notLive`), and
  writing is nothing but writing down the tree (`Description.write_of_notLive` and the like).
-/

namespace Annotations

/-! ### One level at a time -/

/-- Freezes a part, without the frozen part. -/
def Part.freezing (limit : Nat) : Part → Eval Unit
  | value v => (v.freeze limit).silent
  | type t => (t.freeze limit).silent
  | stated s => (s.freeze limit).silent
  | live l => ((Description.live l).detach limit).silent

section

variable {limit : Nat}

private theorem silent_freezeValues (vs : List Value) :
    (freezeValues limit vs).silent = forM (vs.map Part.value) (Part.freezing limit) := by
  induction vs with
  | nil => rfl
  | cons v vs ih =>
    rw [freezeValues, List.map_cons, List.forM_cons, Eval.silent_bind]
    simp only [Eval.silent_bind_pure, ih]
    rw [← Eval.bind_silent]
    rfl

private theorem silent_freezeAccessors (as : List Accessor) :
    (freezeAccessors limit as).silent =
      forM ((as.filterMap Accessor.default?).map Part.value) (Part.freezing limit) := by
  induction as with
  | nil => rfl
  | cons a as ih =>
    rw [freezeAccessors, Eval.silent_bind]
    simp only [Eval.silent_bind_pure, ih]
    cases a with
    | stated o n k default =>
      cases default with
      | none => rfl
      | some v =>
        rw [← Eval.bind_silent, Accessor.freeze, Eval.silent_bind_pure]
        rfl
    | live m => rfl

private theorem silent_freezeEntries (es : List (String × Value)) :
    (freezeEntries limit es).silent =
      forM (es.map fun e ↦ Part.value e.2) (Part.freezing limit) := by
  induction es with
  | nil => rfl
  | cons e es ih =>
    obtain ⟨name, v⟩ := e
    rw [freezeEntries, List.map_cons, List.forM_cons, Eval.silent_bind]
    simp only [Eval.silent_bind_pure, ih]
    rw [← Eval.bind_silent]
    rfl

/-- **Freezing a part freezes the parts that it consists of**, in order. -/
theorem Part.freezing_eq_forM {p : Part} (h : p.NotLive) :
    p.freezing limit = forM p.children (freezing limit) := by
  cases p with
  | value v =>
    cases v with
    | type t =>
      rw [freezing, Value.freeze, Eval.silent_bind_pure, children, List.forM_cons, List.forM_nil,
        bind_pure_unit]
      rfl
    | constant c =>
      cases c with
      | stated t n =>
        rw [freezing, Value.freeze, Eval.silent_bind_pure, Constant.freeze, Eval.silent_bind_pure,
          children, List.forM_cons, List.forM_nil, bind_pure_unit]
        rfl
      | live c => rfl
    | nested d =>
      rw [freezing, Value.freeze, Eval.silent_bind_pure, children, List.forM_cons, List.forM_nil,
        bind_pure_unit]
      cases d <;> rfl
    | array vs => rw [freezing, Value.freeze, Eval.silent_bind_pure, silent_freezeValues, children]
    | _ => rfl
  | type t =>
    obtain ⟨name, sort, accessors, constants⟩ := t
    rw [freezing, TypeDecl.freeze, Eval.silent_bind_pure, silent_freezeAccessors, children]
  | stated s =>
    obtain ⟨t, values⟩ := s
    rw [freezing, Stated.freeze, Eval.silent_bind]
    simp only [Eval.silent_bind_pure, silent_freezeEntries]
    rw [children, List.forM_cons, ← Eval.bind_silent]
    rfl
  | live l => exact h.elim

end

theorem Description.freezing_ofDescription (limit : Nat) (d : Description) :
    (Part.ofDescription d).freezing limit = (d.freeze limit).silent := by
  cases d <;> rfl

/-! ### Where there is no live annotation -/

/-- Freezing the part changes nothing and reads nothing. -/
def Part.Freezes (limit : Nat) : Part → Prop
  | value v => v.freeze limit = pure v
  | type t => t.freeze limit = pure t
  | stated s => s.freeze limit = pure s
  | live _ => True

private theorem freezeValues_eq_pure {limit : Nat} {vs : List Value}
    (h : ∀ v ∈ vs, v.freeze limit = pure v) : freezeValues limit vs = pure vs := by
  induction vs with
  | nil => rfl
  | cons v vs ih =>
    obtain ⟨first, rest⟩ := List.forall_mem_cons.1 h
    rw [freezeValues, first, ih rest, pure_bind, pure_bind]

private theorem freezeAccessors_eq_pure {limit : Nat} {as : List Accessor}
    (h : ∀ a ∈ as, ∀ v, a.default? = some v → v.freeze limit = pure v) :
    freezeAccessors limit as = pure as := by
  induction as with
  | nil => rfl
  | cons a as ih =>
    obtain ⟨default, rest⟩ := List.forall_mem_cons.1 h
    have first : a.freeze limit = pure a := by
      cases a with
      | stated o n k d =>
        cases d with
        | none => rfl
        | some v => rw [Accessor.freeze, default v rfl, pure_bind]
      | live m => rfl
    rw [freezeAccessors, first, ih rest, pure_bind, pure_bind]

private theorem freezeEntries_eq_pure {limit : Nat} {es : List (String × Value)}
    (h : ∀ e ∈ es, e.2.freeze limit = pure e.2) : freezeEntries limit es = pure es := by
  induction es with
  | nil => rfl
  | cons e es ih =>
    obtain ⟨name, v⟩ := e
    obtain ⟨first, rest⟩ := List.forall_mem_cons.1 h
    have first : v.freeze limit = pure v := first
    rw [freezeEntries, first, ih rest, pure_bind, pure_bind]

/-- **Where there is no live annotation, there is nothing to freeze.** -/
theorem Part.freezes_of_notLive (limit : Nat) {p : Part} (h : p.Throughout NotLive) :
    p.Freezes limit := by
  induction p, h using Part.throughout_rec with
  | scalar v _ hv => cases v <;> first | rfl | cases hv
  | typed t _ _ ih =>
    have ih : t.freeze limit = pure t := ih
    rw [Freezes, Value.freeze, ih, pure_bind]
  | constant t n _ _ ih =>
    have ih : t.freeze limit = pure t := ih
    rw [Freezes, Value.freeze, Constant.freeze, ih, pure_bind, pure_bind]
  | liveConstant c _ => rfl
  | nested s _ _ ih =>
    have ih : s.freeze limit = pure s := ih
    rw [Freezes, Value.freeze, Description.freeze, ih, pure_bind]
  | liveNested l _ h _ => exact h.self.elim
  | array vs _ ih =>
    rw [Freezes, Value.freeze, freezeValues_eq_pure fun v hv ↦ (ih v hv).2, pure_bind]
  | type t _ ih =>
    have accessors := freezeAccessors_eq_pure fun a ha v hv ↦ (ih a ha v hv).2
    obtain ⟨name, sort, accessors, constants⟩ := t
    rw [Freezes, TypeDecl.freeze, accessors, pure_bind]
  | stated s _ _ type values =>
    obtain ⟨t, values⟩ := s
    have type : t.freeze limit = pure t := type
    rw [Freezes, Stated.freeze, type, freezeEntries_eq_pure fun e he ↦ (values e he).2, pure_bind,
      pure_bind]
  | live l _ => trivial

section

variable (L : Json.Layer) (limit : Nat)

theorem Value.writeIn_of_notLive {v : Value} (h : (Part.value v).Throughout Part.NotLive) :
    v.writeIn L limit = pure (L.print v.doc) := by
  have freeze : v.freeze limit = pure v := Part.freezes_of_notLive limit h
  rw [writeIn, freeze, pure_bind]

theorem TypeDecl.writeIn_of_notLive {t : TypeDecl} (h : (Part.type t).Throughout Part.NotLive) :
    t.writeIn L limit = pure (L.print t.doc) := by
  have freeze : t.freeze limit = pure t := Part.freezes_of_notLive limit h
  rw [writeIn, freeze, pure_bind]

theorem Constant.writeIn_of_notLive {c : Constant}
    (h : (Part.value (.constant c)).Throughout Part.NotLive) :
    c.writeIn L limit = pure (L.print c.doc) := by
  cases c with
  | stated t n =>
    have freeze : t.freeze limit = pure t :=
      Part.freezes_of_notLive limit (Part.throughout_constant_iff.1 h).2
    rw [writeIn, Constant.freeze, freeze, pure_bind, pure_bind]
  | live c => rfl

theorem Description.writeIn_of_notLive {s : Stated} (h : (Part.stated s).Throughout Part.NotLive) :
    (stated s).writeIn L limit = pure (L.print s.doc) := by
  have freeze : s.freeze limit = pure s := Part.freezes_of_notLive limit h
  rw [writeIn, Description.freeze, freeze, pure_bind]

end

end Annotations
