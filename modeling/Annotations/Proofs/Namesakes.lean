import Annotations.Proofs.HashSum

/-!
# Annotations of types with the same name

Annotations that report equal values are meant to be equal and to have the same hash, also when they
are objects of two live types of the same name. Two things are to be told apart.

* Their hashes are the same: each annotation is hashed by its own handles, and the sums are over the
  same names.
* A comparison asks the right side by the handles of the left one. Those that are foreign to the
  right side run the methods of the left side's type there, on an object they are not made for. So
  the comparison succeeds exactly when these methods happen to give equal values
  (`AnswersForeign`). A method of the catalogue fails on such an object.
-/

namespace Annotations

namespace Description

/-- Where a handle of the first annotation is foreign to the second one, the method that is run
there gives a value that is equal to what the first annotation reports. -/
def AnswersForeign (limit room : Nat) (d e : Description) : Prop :=
  ∀ a ∈ d.type.accessors, e.Foreign a.handle →
    ∃ x y, (d.get a.handle).result = .ok x ∧ (e.get a.handle).result = .ok y ∧
      (Value.equalBy (equalWithin limit room) x y).result = .ok true

/-- Under each name both annotations report a value, and that of the first one is found equal to
that of the second one. -/
def ReportsEqual (limit room : Nat) (d e : Description) : Prop :=
  ∀ n ∈ d.type.accessorNames, ∃ x y, (d.named n).result = .ok x ∧ (e.named n).result = .ok y ∧
    (Value.equalBy (equalWithin limit room) x y).result = .ok true

/-- Under each name both annotations report values of the same hash. -/
def ReportsHashed (limit room : Nat) (d e : Description) : Prop :=
  ∀ n ∈ d.type.accessorNames, ∃ m, d.HashesTo limit room n m ∧ e.HashesTo limit room n m

/-- A comparison of annotations that report equal values depends on nothing but the foreign
handles. -/
theorem equalWithin_iff_answersForeign {limit room : Nat} {d e : Description} (hd : d.Proper)
    (he : e.Proper) (comparable : d.type.comparable e.type = true)
    (values : d.ReportsEqual limit room e) :
    (equalWithin limit (room + 1) d e).result = .ok true ↔ AnswersForeign limit room d e := by
  rw [equalWithin_succ_iff]
  constructor
  · rintro ⟨-, answers⟩ a ha -
    exact answers a ha
  · intro foreign
    refine ⟨comparable, fun a ha ↦ ?_⟩
    by_cases hf : e.Foreign a.handle
    · exact foreign a ha hf
    · -- The handle is as good as its name on both sides.
      have left : d.get a.handle = d.named a.name := hd.get_own ha
      have right : e.get a.handle = e.named a.name :=
        get_eq_named he.plain he.owned hf (TypeDecl.declares_of_comparable comparable ha)
      rw [left, right]
      exact values a.name (List.mem_map_of_mem ha)

/-- In values that hold annotations of one live type to a name, equality is the same in either order
and goes with equality of hashes. -/
theorem reports_of_orderly {limit room : Nat} {d e : Description} (w : Registry)
    (accessors : ∀ n, n ∈ d.type.accessorNames ↔ n ∈ e.type.accessorNames)
    (inside : ∀ v, d.Reports v ∨ e.Reports v → v.Everywhere w.Orderly)
    (values : d.ReportsEqual limit room e) :
    e.ReportsEqual limit room d ∧ d.ReportsHashed limit room e := by
  constructor
  · intro n hn
    obtain ⟨x, y, hx, hy, equal⟩ := values n ((accessors n).2 hn)
    have ox := inside x (.inl (reports_of_named hx))
    have oy := inside y (.inr (reports_of_named hy))
    exact ⟨y, x, hy, hx, (Value.equalBy_comm ox oy).1 equal⟩
  · intro n hn
    obtain ⟨x, y, hx, hy, equal⟩ := values n hn
    have ox := inside x (.inl (reports_of_named hx))
    have oy := inside y (.inr (reports_of_named hy))
    obtain ⟨m, hxm, hym⟩ := Registry.hashBy_of_equalBy ox oy equal
    exact ⟨m, ⟨x, hx, hxm⟩, y, hy, hym⟩

/-- **Annotations that report equal values.** Let two annotations have types of the same name with
the same distinct accessors, and let them report equal values under each name, within the levels
that a comparison may enter. Then:

* they are found equal exactly when the handles of the left one that are foreign to the right one
  are answered there with equal values;
* if the values are also equal the other way round, the same goes for the other order;
* if the values have the same hashes, so have the annotations.

The values are equal the other way round and have the same hashes when they hold annotations of one
live type to a name. -/
theorem equal_iff_answersForeign {room : Nat} {d e : Description} (hd : d.Proper) (he : e.Proper)
    (name : d.typeName = e.typeName) (distinct : d.type.accessorNames.Nodup)
    (distinct' : e.type.accessorNames.Nodup)
    (accessors : ∀ n, n ∈ d.type.accessorNames ↔ n ∈ e.type.accessorNames)
    (values : d.ReportsEqual (room + 1) room e) :
    ((d.equal (room + 1) e).result = .ok true ↔ AnswersForeign (room + 1) room d e) ∧
    (e.ReportsEqual (room + 1) room d →
      ((e.equal (room + 1) d).result = .ok true ↔ AnswersForeign (room + 1) room e d)) ∧
    (d.ReportsHashed (room + 1) room e →
      ∃ n, (d.hash (room + 1)).result = .ok n ∧ (e.hash (room + 1)).result = .ok n) ∧
    ∀ w : Registry, (∀ v, d.Reports v ∨ e.Reports v → v.Everywhere w.Orderly) →
      e.ReportsEqual (room + 1) room d ∧ d.ReportsHashed (room + 1) room e := by
  have perm : d.type.accessorNames.Perm e.type.accessorNames :=
    (List.perm_ext_iff_of_nodup distinct distinct').2 accessors
  have forth : d.type.comparable e.type = true :=
    (TypeDecl.comparable_iff hd.owned distinct).2 ⟨name, perm⟩
  have back : e.type.comparable d.type = true :=
    (TypeDecl.comparable_iff he.owned distinct').2 ⟨name.symm, perm.symm⟩
  refine ⟨equalWithin_iff_answersForeign hd he forth values, ?_, ?_, ?_⟩
  · intro values'
    exact equalWithin_iff_answersForeign he hd back values'
  · intro hashed
    exact exists_hashWithin_of_hashesTo hd he perm hashed
  · intro w inside
    exact reports_of_orderly w accessors inside values

/-! ### A marker and its namesake -/

/-- A type of the name of the catalogue's markers, with the same accessor but its own method. -/
def namesakeMarkerType : LiveType :=
  .ofMethods "com.example.Marker" [.accessor "value" .int (.fixed (.ok (.int 42)))]

/-- A marker of the catalogue. -/
def marker42 : Description := .ofInstance (.marker ⟨42⟩)

/-- An object of the namesake type. -/
def namesake42 : Description := .ofInstance (.record namesakeMarkerType [])

theorem proper_marker42 : marker42.Proper :=
  have regular : Marker.liveType.Regular := LiveType.regular_ofMethods (by decide)
  ⟨⟨rfl, regular⟩, regular.owned_describe⟩

theorem proper_namesake42 : namesake42.Proper :=
  have regular : namesakeMarkerType.Regular := LiveType.regular_ofMethods (by decide)
  ⟨⟨rfl, regular⟩, regular.owned_describe⟩

theorem reportsEqual_marker42 : marker42.ReportsEqual 64 63 namesake42 := by
  intro n hn
  obtain rfl : n = "value" := List.mem_singleton.1 hn
  exact ⟨.int 42, .int 42, rfl, rfl, rfl⟩

theorem equal_iff_answersForeign_marker :
    (marker42.equal 64 namesake42).result = .ok true ↔ AnswersForeign 64 63 marker42 namesake42 :=
  (equal_iff_answersForeign proper_marker42 proper_namesake42 rfl (by decide) (by decide)
    (fun _ ↦ Iff.rfl) reportsEqual_marker42).1

/-- The marker and its namesake report the same and have the same hash, and neither can be compared
with the other: the method of the one does not run on the other. -/
theorem marker_ne_namesake :
    marker42.Proper ∧ namesake42.Proper ∧ marker42.typeName = namesake42.typeName ∧
      marker42.type.accessorNames = ["value"] ∧ namesake42.type.accessorNames = ["value"] ∧
      (marker42.named "value").result = .ok (.int 42) ∧
      (namesake42.named "value").result = .ok (.int 42) ∧
      (marker42.hash 64).result = (namesake42.hash 64).result ∧
      (marker42.equal 64 namesake42).result =
        .error (.invocationFailure "com.example.Marker.value()" "Receiver is not a Marker") ∧
      (namesake42.equal 64 marker42).result =
        .error (.invocationFailure "com.example.Marker.value()" "Receiver is not a DynInstance") :=
  ⟨proper_marker42, proper_namesake42, rfl, rfl, rfl, rfl, rfl, rfl, rfl, rfl⟩

end Description

end Annotations
