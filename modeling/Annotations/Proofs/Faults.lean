import Annotations.Proofs.Drafts

/-!
# Why nothing is built

A stated annotation is built from a type and a list of values, in any order and with any
repetitions. This module says when nothing comes of it, and why. There are three causes, and the
first one that applies is reported.

* **A value is refused** (`TypeDecl.Refuses`): its name is not declared, or it does not conform. Of
  several refused values the first one in the list is reported (`Draft.defineAll_eq_error_iff`).
* The type is no annotation type.
* **An accessor lacks a value** (`Draft.Lacks`): it has no default value, and none was given under
  its name that an accessor before it has not taken. Of several such accessors the first one in the
  order of declaration is reported (`Draft.choose_eq_error_iff`).

What comes first in a list, with an eye to what stands before it, is `IsFirst`.

Where all accessors have names of their own, none can take the value of another. There the values
that make an annotation can be told without following the draft, and the order of the values matters
only where they have the same name (`Stated.built_iff_served`).
-/

namespace Annotations

/-! ### The first of a list -/

section IsFirst

variable {α : Type} {P Q : List α → α → Prop} {x a : α} {xs as : List α}

/-- The element is in the list, `P` holds of what stands before it and of itself, and this is so of
no element before it. -/
def IsFirst (P : List α → α → Prop) (as : List α) (a : α) : Prop :=
  ∃ before after, as = before ++ a :: after ∧ P before a ∧
    ∀ before' b after', before = before' ++ b :: after' → ¬P before' b

theorem not_isFirst_nil : ¬IsFirst P [] a := by
  rintro ⟨before, after, split, -⟩
  simp at split

/-- The first element is the head, or else it is the first one of the tail. -/
theorem isFirst_cons_iff :
    IsFirst P (x :: xs) a ↔
      P [] x ∧ a = x ∨ ¬P [] x ∧ IsFirst (fun before b ↦ P (x :: before) b) xs a := by
  constructor
  · rintro ⟨before, after, split, here, none⟩
    rcases List.cons_eq_append_iff.1 split with ⟨rfl, heq⟩ | ⟨before, rfl, rfl⟩
    · obtain ⟨rfl, rfl⟩ := List.cons_eq_cons.1 heq
      exact .inl ⟨here, rfl⟩
    · refine .inr ⟨none [] x before rfl, before, after, rfl, here, fun before' b after' split ↦ ?_⟩
      exact none (x :: before') b after' (by rw [split]; rfl)
  · rintro (⟨here, rfl⟩ | ⟨skip, before, after, rfl, here, none⟩)
    · exact ⟨[], xs, rfl, here, fun before' b after' split ↦ by simp at split⟩
    · refine ⟨x :: before, after, rfl, here, fun before' b after' split ↦ ?_⟩
      rcases List.cons_eq_append_iff.1 split with ⟨rfl, heq⟩ | ⟨before', rfl, tail⟩
      · obtain ⟨rfl, -⟩ := List.cons_eq_cons.1 heq
        exact skip
      · exact none before' b after' tail

theorem IsFirst.mem (h : IsFirst P as a) : a ∈ as := by
  obtain ⟨before, after, rfl, -⟩ := h
  exact List.mem_append_right _ List.mem_cons_self

/-- Where all elements have a property, there is no first one without it. -/
theorem not_isFirst_of_forall {p : α → Prop} (h : ∀ a ∈ as, p a) :
    ¬IsFirst (fun _ a ↦ ¬p a) as a := by
  intro first
  obtain ⟨before, after, -, here, -⟩ := id first
  exact here (h a first.mem)

theorem IsFirst.congr (h : IsFirst P as a)
    (same : ∀ before b after, as = before ++ b :: after → (P before b ↔ Q before b)) :
    IsFirst Q as a := by
  obtain ⟨before, after, rfl, here, none⟩ := h
  refine ⟨before, after, rfl, (same _ _ _ rfl).1 here, fun before' b after' split there ↦ ?_⟩
  refine none before' b after' split ((same before' b (after' ++ a :: after) ?_).2 there)
  rw [split, List.append_assoc, List.cons_append]

end IsFirst

/-! ### Refused values -/

/-- The type refuses the value, and this is the error: it declares no accessor of the name, or the
value does not conform to the kind of the first one. -/
inductive TypeDecl.Refuses (t : TypeDecl) : String × Value → ReadError → Prop
  | undeclared {n : String} {v : Value} (new : n ∉ t.accessorNames) :
    Refuses t (n, v) (.accessorNotFound t.name n)
  | mismatch {n : String} {v : Value} {a : Accessor} (found : t.accessor? n = some a)
    (other : v.conforms a.kind = false) : Refuses t (n, v) (.typeMismatch a.kind.name v.kindName)

namespace Draft

variable {d : Draft} {err : ReadError}

theorem define_eq_error_iff {n : String} {v : Value} :
    d.define n v = .error err ↔ d.type.Refuses (n, v) err := by
  have new : d.type.accessor? n = none ↔ n ∉ d.type.accessorNames := by
    rw [← TypeDecl.accessor?_isSome, Option.not_isSome_iff_eq_none]
  rw [define]
  constructor
  · intro h
    split at h
    · next undeclared =>
      cases h
      exact .undeclared (new.1 undeclared)
    · next a found =>
      by_cases conforms : v.conforms a.kind = true
      · simp [Value.checked, conforms, Except.map] at h
      · simp only [Value.checked, if_neg conforms, Except.map, Except.error.injEq] at h
        exact h ▸ .mismatch found (Bool.not_eq_true _ ▸ conforms)
  · rintro (undeclared | ⟨found, other⟩)
    · rw [new.2 undeclared]
    · rw [found]
      simp [Value.checked, other, Except.map]

/-- What is refused is not taken. -/
theorem not_takes_of_refuses {t : TypeDecl} {e : String × Value} (h : t.Refuses e err) :
    ¬t.Takes e := by
  intro takes
  have taken : (empty t).define e.1 e.2 = .ok _ := define_eq_ok_iff.2 ⟨takes, rfl⟩
  have refused : (empty t).define e.1 e.2 = .error err := define_eq_error_iff.2 h
  cases taken.symm.trans refused

/-- **The first refused value** in the list is the one that is reported. -/
theorem defineAll_eq_error_iff {values : List (String × Value)} :
    d.defineAll values = .error err ↔
      ∃ e, IsFirst (fun _ e ↦ ¬d.type.Takes e) values e ∧ d.type.Refuses e err := by
  unfold defineAll
  induction values generalizing d with
  | nil => simp [not_isFirst_nil, pure, Except.pure]
  | cons e values ih =>
    rw [List.foldlM_cons]
    simp only [isFirst_cons_iff, not_not]
    cases hdefine : d.define e.1 e.2 with
    | error err' =>
      have refused := define_eq_error_iff.1 hdefine
      have skip := not_takes_of_refuses refused
      simp only [bind, Except.bind, skip, not_false_eq_true, true_and, false_and, or_false,
        exists_eq_left, Except.error.injEq]
      constructor
      · rintro rfl
        exact refused
      · intro h
        rw [define_eq_error_iff.2 h] at hdefine
        exact (Except.error.inj hdefine).symm
    | ok next =>
      obtain ⟨takes, rfl⟩ := define_eq_ok_iff.1 hdefine
      have takes : d.type.Takes e := takes
      simp only [bind, Except.bind, takes, not_true_eq_false, false_and, true_and, false_or]
      exact ih

/-! ### Accessors that lack a value -/

/-- The accessor, with these before it, has no default value, and what was given under its name, if
anything, has been taken by an accessor before it. -/
def Lacks (names : List String) (before : List Accessor) (a : Accessor) : Prop :=
  a.default? = none ∧ (a.name ∈ names → a.name ∈ before.map Accessor.name)

private theorem lacks_cons_iff {a : Accessor} {given left : List (String × Value)}
    (rest : ∀ n, left.lookup n = if n = a.name then none else given.lookup n)
    {before : List Accessor} {b : Accessor} :
    Lacks (Entries.names left) before b ↔ Lacks (Entries.names given) (a :: before) b := by
  have names : b.name ∈ Entries.names left ↔ b.name ≠ a.name ∧ b.name ∈ Entries.names given := by
    rw [← not_iff_not, ← Entries.lookup_eq_none_iff, rest, not_and_or, not_not,
      ← Entries.lookup_eq_none_iff]
    split <;> simp [*]
  rw [Lacks, Lacks, names, List.map_cons, List.mem_cons]
  tauto

/-- **The first accessor that lacks a value** is the one that is reported. -/
theorem choose_eq_error_iff {typeName : String} {as : List Accessor}
    {given : List (String × Value)} (distinct : (Entries.names given).Nodup) :
    choose typeName as given = .error err ↔
      ∃ a, IsFirst (Lacks (Entries.names given)) as a ∧ err = .missingValue typeName a.name := by
  induction as generalizing given with
  | nil => simp [choose, not_isFirst_nil]
  | cons a as ih =>
    rcases exists_chosen_or given a with ⟨v, left, chosen⟩ | ⟨absent, noDefault⟩
    · -- The others choose from what is left, as if this accessor stood before them.
      have served : ¬Lacks (Entries.names given) [] a := by
        rintro ⟨noDefault, taken⟩
        cases chosen with
        | given found =>
          have mem := List.mem_map_of_mem (f := Prod.fst) (Entries.mem_of_lookup found)
          exact List.not_mem_nil (taken mem)
        | default _ default => cases noDefault.symm.trans default
      have lacks : Lacks (Entries.names left) =
          fun before b ↦ Lacks (Entries.names given) (a :: before) b := by
        funext before b
        exact propext (lacks_cons_iff (chosen.lookup_left distinct))
      have error : choose typeName (a :: as) given = .error err ↔
          choose typeName as left = .error err := by
        rw [chosen.choose_cons]
        cases choose typeName as left <;> simp [Except.map]
      simp only [error, ih (chosen.nodup distinct), lacks, isFirst_cons_iff, served, false_and,
        not_false_eq_true, true_and, false_or]
    · have lacks : Lacks (Entries.names given) [] a :=
        ⟨noDefault, fun named ↦ absurd named (Entries.lookup_eq_none_iff.1 absent)⟩
      simp only [choose_cons_of_none absent noDefault, isFirst_cons_iff, lacks, not_true_eq_false,
        true_and, false_and, or_false, exists_eq_left, Except.error.injEq]
      exact eq_comm

end Draft

/-! ### What is reported -/

namespace Stated

variable {t : TypeDecl} {values : List (String × Value)} {s : Stated} {err : ReadError}

/-- **Why nothing is built**: for the first refused value; or else for the sort of the type; or else
for the first accessor that lacks a value. -/
theorem of_eq_error_iff :
    Stated.of t values = .error err ↔
      (∃ e, IsFirst (fun _ e ↦ ¬t.Takes e) values e ∧ t.Refuses e err) ∨
      (∀ e ∈ values, t.Takes e) ∧
        (t.isAnnotationType = false ∧ err = .typeMismatch "annotation type" t.name ∨
          t.isAnnotationType = true ∧
            ∃ a, IsFirst (Draft.Lacks (Entries.names values)) t.accessors a ∧
              err = .missingValue t.name a.name) := by
  cases hd : (Draft.empty t).defineAll values with
  | error err' =>
    obtain ⟨e, first, refuses⟩ := Draft.defineAll_eq_error_iff.1 hd
    have notAll : ¬∀ e ∈ values, t.Takes e := fun takes ↦ not_isFirst_of_forall takes first
    have of : Stated.of t values = (.error err' : Except ReadError Stated) := by
      rw [Stated.of, hd]
      rfl
    have same : Stated.of t values = .error err ↔
        (Draft.empty t).defineAll values = .error err := by
      rw [of, hd, Except.error.injEq, Except.error.injEq]
    rw [same, Draft.defineAll_eq_error_iff, or_iff_left fun h ↦ notAll h.1]
    rfl
  | ok d =>
    have takes : ∀ e ∈ values, t.Takes e := (Draft.defineAll_eq_ok_iff.1 hd).1
    have noFirst : ¬∃ e, IsFirst (fun _ e ↦ ¬t.Takes e) values e ∧ t.Refuses e err := by
      rintro ⟨e, first, -⟩
      exact not_isFirst_of_forall takes first
    have names : Draft.Lacks (Entries.names (Entries.ofList values)) =
        Draft.Lacks (Entries.names values) := by
      funext before a
      simp only [Draft.Lacks, Entries.names_ofList, List.mem_eraseDups]
    rw [of_eq_build_of_takes takes, or_iff_right noFirst, and_iff_right takes,
      Draft.build_eq_choose]
    cases sort : t.isAnnotationType with
    | false => simp [eq_comm]
    | true =>
      have error (es : Except ReadError (List (String × Value))) :
          es.map (fun es ↦ Stated.mk t (Entries.ofList es)) = .error err ↔ es = .error err := by
        cases es <;> simp [Except.map]
      rw [if_pos rfl, error, Draft.choose_eq_error_iff (Entries.nodup_names_ofList values), names]
      simp only [Bool.true_eq_false, false_and, true_and, false_or]

end Stated

/-! ### The order of the values -/

/-- What is chosen depends on what is found under the names only. -/
theorem Draft.choose_congr {typeName : String} {as : List Accessor}
    {given given' : List (String × Value)} (nodup : (Entries.names given).Nodup)
    (nodup' : (Entries.names given').Nodup) (same : ∀ n, given.lookup n = given'.lookup n) :
    choose typeName as given = choose typeName as given' := by
  induction as generalizing given given' with
  | nil => rfl
  | cons a as ih =>
    rw [choose, choose, same]
    cases found : given'.lookup a.name with
    | none =>
      dsimp only
      rw [ih nodup nodup' same]
    | some v =>
      have left := (Chosen.given ((same a.name).trans found)).lookup_left nodup
      have left' := (Chosen.given found).lookup_left nodup'
      dsimp only
      rw [ih (Entries.nodup_names_remove nodup) (Entries.nodup_names_remove nodup')
        fun n ↦ by rw [left, left', same]]

/-- **The order of values of different names** does not matter, as long as all values are taken. -/
theorem Stated.of_eq_of_sameByName {t : TypeDecl} {values values' : List (String × Value)}
    (same : Entries.SameByName values values') (takes : ∀ e ∈ values, t.Takes e) :
    Stated.of t values' = Stated.of t values := by
  have takes' : ∀ e ∈ values', t.Takes e := fun e he ↦ takes e (same.mem_iff.2 he)
  have found : ∀ n, (Entries.ofList values').lookup n = (Entries.ofList values).lookup n := by
    intro n
    rw [Entries.lookup_ofList, Entries.lookup_ofList, same.lookup_reverse]
  rw [of_eq_build_of_takes takes, of_eq_build_of_takes takes', Draft.build_eq_choose,
    Draft.build_eq_choose,
    Draft.choose_congr (Entries.nodup_names_ofList _) (Entries.nodup_names_ofList _) found]

/-! ### Accessors with names of their own -/

/-- A value was given for the accessor, or it has a default value. -/
def Accessor.Served (values : List (String × Value)) (a : Accessor) : Prop :=
  a.name ∈ Entries.names values ∨ a.default?.isSome = true

/-- The entry has the name of the accessor, and the last value that was given for it, or else its
default value. -/
def Accessor.Assigned (values : List (String × Value)) (a : Accessor) (e : String × Value) : Prop :=
  e.1 = a.name ∧ (values.reverse.lookup a.name).or a.default? = some e.2

theorem Accessor.Assigned.served {values : List (String × Value)} {a : Accessor}
    {e : String × Value} (h : a.Assigned values e) : a.Served values := by
  obtain ⟨-, found⟩ := h
  rcases Option.or_eq_some_iff.1 found with given | ⟨-, default⟩
  · left
    have mem := List.mem_reverse.1 (Entries.mem_of_lookup given)
    exact List.mem_map_of_mem (f := Prod.fst) mem
  · exact .inr (Option.isSome_of_eq_some default)

section Distinct

variable {as : List Accessor} (distinct : (as.map Accessor.name).Nodup)
include distinct

/-- What is chosen for the accessors is what was given for them, or else their default values. -/
theorem Draft.forall₂_choose {typeName : String} {given es : List (String × Value)}
    (nodup : (Entries.names given).Nodup) (h : choose typeName as given = .ok es) :
    List.Forall₂ (fun a e ↦ e.1 = a.name ∧ (given.lookup a.name).or a.default? = some e.2)
      as es := by
  induction as generalizing given es with
  | nil =>
    cases h
    exact .nil
  | cons a as ih =>
    obtain ⟨v, rest, left, rfl, hrest, chosen⟩ := choose_cons_eq_ok h
    obtain ⟨new, distinct⟩ := List.nodup_cons.1 distinct
    refine .cons ⟨rfl, chosen.found⟩ ?_
    -- What has been taken for the first accessor has none of the other names.
    have others : ∀ b ∈ as, left.lookup b.name = given.lookup b.name := by
      intro b hb
      have other : b.name ≠ a.name := fun same ↦ new (same ▸ List.mem_map_of_mem hb)
      rw [chosen.lookup_left nodup, if_neg other]
    have all := (List.forall₂_and_left _ _).2 ⟨others, ih distinct (chosen.nodup nodup) hrest⟩
    exact all.imp fun b e ⟨same, name, found⟩ ↦ ⟨name, same ▸ found⟩

/-- The first accessor that lacks a value is the first one that is not served. -/
theorem Draft.isFirst_lacks_iff {values : List (String × Value)} {a : Accessor} :
    IsFirst (Lacks (Entries.names values)) as a ↔ IsFirst (fun _ a ↦ ¬a.Served values) as a := by
  have same : ∀ before b after, as = before ++ b :: after →
      (Lacks (Entries.names values) before b ↔ ¬b.Served values) := by
    rintro before b after rfl
    have own : b.name ∉ before.map Accessor.name := by
      rw [List.map_append, List.map_cons] at distinct
      exact fun earlier ↦ (List.nodup_append.1 distinct).2.2 _ earlier _ List.mem_cons_self rfl
    rw [Lacks, Accessor.Served, not_or, Option.not_isSome_iff_eq_none, and_comm]
    simp only [own, imp_false]
  exact ⟨fun h ↦ h.congr same, fun h ↦ h.congr fun before b after split ↦
    (same before b after split).symm⟩

end Distinct

namespace Stated

variable {t : TypeDecl} (distinct : t.accessorNames.Nodup) {values : List (String × Value)}
  {s : Stated} {err : ReadError}
include distinct

theorem forall₂_assigned_of (h : Stated.of t values = .ok s) :
    List.Forall₂ (Accessor.Assigned values) t.accessors s.values := by
  obtain ⟨-, -, es, choose, rfl⟩ := of_eq_ok_iff.1 h
  have names : Entries.names es = t.accessorNames := Draft.names_choose choose
  have all := Draft.forall₂_choose distinct (Entries.nodup_names_ofList values) choose
  simp only [Entries.lookup_ofList] at all
  rw [Entries.ofList_of_nodup (names ▸ distinct)]
  exact all

/-- An annotation is built if all values are taken and all accessors are served. -/
theorem exists_of_iff :
    (∃ s, Stated.of t values = .ok s) ↔
      (∀ e ∈ values, t.Takes e) ∧ t.isAnnotationType = true ∧
        ∀ a ∈ t.accessors, a.Served values := by
  constructor
  · rintro ⟨s, h⟩
    obtain ⟨takes, sort, -⟩ := of_eq_ok_iff.1 h
    have all : List.Forall₂ (fun a e ↦ a.Served values ∧ a.Assigned values e)
        t.accessors s.values :=
      (forall₂_assigned_of distinct h).imp fun a e assigned ↦ ⟨assigned.served, assigned⟩
    exact ⟨takes, sort, ((List.forall₂_and_left _ _).1 all).1⟩
  · rintro ⟨takes, sort, served⟩
    cases h : Stated.of t values with
    | ok s => exact ⟨s, rfl⟩
    | error err =>
      rcases of_eq_error_iff.1 h with ⟨e, refused, -⟩ | ⟨-, other | ⟨-, a, missing, -⟩⟩
      · exact absurd refused (not_isFirst_of_forall takes)
      · cases sort.symm.trans other.1
      · exact absurd ((Draft.isFirst_lacks_iff distinct).1 missing) (not_isFirst_of_forall served)

/-- **What is built and what is not**, where all accessors have names of their own. An annotation is
built if all values are taken, the type is an annotation type, and all accessors are served; then it
has for each accessor, in order, the last value that was given for it or else its default value. The
order of values of different names does not matter, and as long as all of them are taken it does not
matter for the errors either. If nothing is built, the first refused value is the cause, or else the
sort of the type, or else the first accessor that is not served. -/
theorem built_iff_served (values : List (String × Value)) :
    ((∃ s, Stated.of t values = .ok s) ↔
      (∀ e ∈ values, t.Takes e) ∧ t.isAnnotationType = true ∧
        ∀ a ∈ t.accessors, a.Served values) ∧
    (∀ s, Stated.of t values = .ok s →
      s.type = t ∧ List.Forall₂ (Accessor.Assigned values) t.accessors s.values) ∧
    (∀ values', Entries.SameByName values values' →
      (∀ s, Stated.of t values' = .ok s ↔ Stated.of t values = .ok s) ∧
        ((∀ e ∈ values, t.Takes e) → Stated.of t values' = Stated.of t values)) ∧
    ∀ err, Stated.of t values = .error err ↔
      (∃ e, IsFirst (fun _ e ↦ ¬t.Takes e) values e ∧ t.Refuses e err) ∨
      (∀ e ∈ values, t.Takes e) ∧
        (t.isAnnotationType = false ∧ err = .typeMismatch "annotation type" t.name ∨
          t.isAnnotationType = true ∧
            ∃ a, IsFirst (fun _ a ↦ ¬a.Served values) t.accessors a ∧
              err = .missingValue t.name a.name) := by
  refine ⟨exists_of_iff distinct, fun s h ↦ ⟨type_of h, forall₂_assigned_of distinct h⟩,
    fun values' same ↦ ⟨fun s ↦ ?_, of_eq_of_sameByName same⟩, fun err ↦ ?_⟩
  · constructor
    · intro h
      have taken := (of_eq_ok_iff.1 h).1
      exact (of_eq_of_sameByName (fun n ↦ (same n).symm) taken).trans h
    · intro h
      exact (of_eq_of_sameByName same (of_eq_ok_iff.1 h).1).trans h
  · simp only [of_eq_error_iff, Draft.isFirst_lacks_iff distinct]

omit distinct

/-- A parcel has a label, and weighs one unless something else is said. -/
def parcelType : TypeDecl :=
  .ofDrafts "com.example.Parcel" [⟨"label", .string, none⟩, ⟨"weight", .int, some (.int 1)⟩]

/-- A label and a weight make a parcel, in either order; a weight alone does not. -/
theorem built_iff_served_parcel :
    (∃ s, Stated.of parcelType [("weight", .int 2), ("label", .string "oats")] = .ok s) ∧
      Stated.of parcelType [("label", .string "oats"), ("weight", .int 2)] =
        Stated.of parcelType [("weight", .int 2), ("label", .string "oats")] ∧
      Stated.of parcelType [("weight", .int 2)] =
        .error (.missingValue "com.example.Parcel" "label") := by
  have distinct : parcelType.accessorNames.Nodup := by decide
  have takes : ∀ e ∈ [("weight", Value.int 2), ("label", .string "oats")], parcelType.Takes e :=
    List.forall_mem_cons.2 ⟨⟨_, rfl, rfl⟩, List.forall_mem_singleton.2 ⟨_, rfl, rfl⟩⟩
  obtain ⟨built, -, order, -⟩ :=
    built_iff_served distinct [("weight", .int 2), ("label", .string "oats")]
  obtain ⟨-, -, -, failed⟩ := built_iff_served distinct [("weight", .int 2)]
  refine ⟨built.2 ⟨takes, rfl, fun a ha ↦ .inl ?_⟩, ?_, ?_⟩
  · have all : ∀ a ∈ parcelType.accessors, a.name ∈ ["weight", "label"] := by decide
    exact all a ha
  · have swapped := Entries.sameByName_swap (e := ("weight", Value.int 2))
      (f := ("label", .string "oats")) (by decide) [] []
    exact (order _ swapped).2 takes
  · have label : IsFirst (fun _ a ↦ ¬a.Served [("weight", .int 2)]) parcelType.accessors
        (.stated "com.example.Parcel" "label" .string none) := by
      refine isFirst_cons_iff.2 (.inl ⟨?_, rfl⟩)
      rintro (given | default)
      · exact absurd given (by decide)
      · cases default
    have taken : ∀ e ∈ [("weight", Value.int 2)], parcelType.Takes e :=
      List.forall_mem_singleton.2 ⟨_, rfl, rfl⟩
    exact (failed _).2 (.inr ⟨taken, .inr ⟨rfl, _, label, rfl⟩⟩)

end Stated

end Annotations
