import Annotations.Description.Detach
import Annotations.Entries
import Annotations.Proofs.Handles

/-!
# Stated annotations are filled

That every accessor of a stated annotation has a value is promised by what makes such annotations: a
draft is completed before it is built (`Stated.filled_of_build`), and detaching reads all accessors
(`Description.of_detachWithin`).
-/

namespace Annotations

/-! ### Drafts -/

/-- Completing gives a value to each of the accessors and keeps those that there were. -/
theorem Draft.lookup_of_complete {typeName : String} {as : List Accessor}
    {given values completed : List (String × Value)}
    (h : complete typeName as given values = .ok completed) {n : String}
    (hn : n ∈ as.map Accessor.name ∨ ∃ v, values.lookup n = some v) :
    ∃ v, completed.lookup n = some v := by
  induction as generalizing given values with
  | nil =>
    cases h
    exact hn.resolve_left List.not_mem_nil
  | cons a as ih =>
    -- Whether given or by default, the accessor has a value from now on.
    have next : ∀ v, n ∈ as.map Accessor.name ∨
        ∃ u, (Entries.set a.name v values).lookup n = some u := by
      intro v
      rw [Entries.lookup_set]
      by_cases same : n = a.name
      · exact .inr ⟨v, by rw [if_pos same]⟩
      · rw [if_neg same]
        rcases hn with hn | hn
        · exact .inl ((List.mem_cons.1 hn).resolve_left same)
        · exact .inr hn
    rw [complete] at h
    cases hgiven : given.lookup a.name with
    | some v =>
      rw [hgiven] at h
      exact ih h (next v)
    | none =>
      rw [hgiven] at h
      cases hdefault : a.default? with
      | some v =>
        rw [hdefault] at h
        exact ih h (next v)
      | none =>
        rw [hdefault] at h
        cases h

namespace Stated

theorem filled_of_build {d : Draft} {s : Stated} (h : d.build = .ok s) : s.Filled := by
  intro n hn
  rw [Draft.build] at h
  split at h
  · cases hc : Draft.complete d.type.name d.type.accessors d.given [] with
    | error e =>
      rw [hc] at h
      cases h
    | ok values =>
      rw [hc] at h
      cases h
      exact Draft.lookup_of_complete hc (.inl hn)
  · cases h

/-- What is stated from values and defaults is filled. -/
theorem filled_of_of {t : TypeDecl} {values : List (String × Value)} {s : Stated}
    (h : Stated.of t values = .ok s) : s.Filled := by
  rw [Stated.of] at h
  cases hd : (Draft.empty t).defineAll values with
  | error e =>
    rw [hd] at h
    cases h
  | ok d =>
    rw [hd] at h
    exact filled_of_build h

end Stated

/-! ### Detaching -/

namespace Description

/-- The entries have the names of the accessors, each with the detached value of one of them. -/
theorem of_detachOn {f : Value → Eval Value} {d : Description} {as : List Accessor}
    {es : List (String × Value)} (h : (detachOn f d as).result = .ok es) :
    Entries.names es = as.map Accessor.name ∧
      ∀ e ∈ es, ∃ a ∈ as, a.name = e.1 ∧
        ∃ v, (d.get a.handle).result = .ok v ∧ (f v).result = .ok e.2 := by
  induction as generalizing es with
  | nil =>
    cases h
    simp
  | cons a as ih =>
    rw [detachOn] at h
    obtain ⟨v, hv, h⟩ := Eval.result_bind_eq_ok.1 h
    obtain ⟨u, hu, h⟩ := Eval.result_bind_eq_ok.1 h
    obtain ⟨rest, hrest, h⟩ := Eval.result_bind_eq_ok.1 h
    cases h
    obtain ⟨names, entries⟩ := ih hrest
    refine ⟨by rw [Entries.names_cons, names, List.map_cons], fun e he ↦ ?_⟩
    rcases List.mem_cons.1 he with rfl | he
    · exact ⟨a, List.mem_cons_self, rfl, v, hv, hu⟩
    · obtain ⟨b, hb, found⟩ := entries e he
      exact ⟨b, List.mem_cons_of_mem a hb, found⟩

/-- **What detaching gives**: an annotation of the same type, with the detached value of an accessor
of that name under each name. -/
theorem of_detachWithin {limit room : Nat} {d : Description} {s : Stated}
    (h : (detachWithin limit (room + 1) d).result = .ok s) :
    s.type = d.type ∧ ∀ n ∈ d.type.accessorNames, ∃ v, s.values.lookup n = some v ∧
      ∃ a ∈ d.type.accessors, a.name = n ∧ ∃ u, (d.get a.handle).result = .ok u ∧
        (Value.detachBy (detachWithin limit room) u).result = .ok v := by
  obtain ⟨es, hes, h⟩ := Eval.result_bind_eq_ok.1 h
  cases h
  obtain ⟨names, entries⟩ := of_detachOn hes
  refine ⟨rfl, fun n hn ↦ ?_⟩
  have mem : n ∈ Entries.names es := names ▸ hn
  obtain ⟨v, hv, hmem⟩ := Entries.exists_lookup_ofList mem
  exact ⟨v, hv, entries (n, v) hmem⟩

end Description

theorem Stated.filled_of_detach {limit : Nat} {d : Description} {s : Stated}
    (h : (d.detach limit).result = .ok s) : s.Filled := by
  cases limit with
  | zero => cases h
  | succ room =>
    obtain ⟨type, values⟩ := Description.of_detachWithin h
    intro n hn
    obtain ⟨v, hv, -⟩ := values n (type ▸ hn)
    exact ⟨v, hv⟩

end Annotations
