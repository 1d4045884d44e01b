import Annotations.Description.Draft
import Annotations.Proofs.EntriesInOrder
import Annotations.Proofs.Filled

/-!
# What a draft builds

A stated annotation is built in two steps: values are given to a draft one by one, and then one
value is chosen for each accessor. Both steps are described on their own, and `Stated.of_eq_ok_iff`
puts them together.

* **Giving values** succeeds exactly when each value is for a declared name and conforms to the kind
  of the first accessor of that name (`Draft.defineAll_eq_ok_iff`).
* **Choosing values** (`Draft.choose`) takes for each accessor the value that was given under its
  name, or else its default value; what it leaves for the accessors after it is in `Draft.Chosen`.
  The values that are built are the chosen ones, set in order
  (`Draft.complete_eq_choose`); so there is one for each declared name (`Stated.arranged_of`), and
  it was given or is a default value (`Stated.mem_of`).

A given value is chosen only once. Where several accessors have one name, the later ones have to do
with their default values, and these are set over what was given: under a name that is declared once
there is the given value or else the default one, under a name that is declared more often there is
the default value of its last accessor (`Stated.lookup_of`).
-/

namespace Annotations

/-! ### Giving values -/

/-- The type declares an accessor of the name, and the first such accessor may give the value. -/
def TypeDecl.Takes (t : TypeDecl) (e : String × Value) : Prop :=
  ∃ a, t.accessor? e.1 = some a ∧ e.2.conforms a.kind = true

namespace Draft

theorem define_eq_ok_iff {d d' : Draft} {n : String} {v : Value} :
    d.define n v = .ok d' ↔
      d.type.Takes (n, v) ∧ d' = ⟨d.type, Entries.set n v d.given⟩ := by
  unfold define TypeDecl.Takes
  cases d.type.accessor? n with
  | none => simp
  | some a =>
    by_cases conforms : v.conforms a.kind = true
    · have checked : v.checked a.kind = .ok v := Value.checked_eq_ok_iff.2 ⟨conforms, rfl⟩
      simp only [checked, Except.map, Except.ok.injEq, Option.some.injEq, exists_eq_left',
        conforms, true_and]
      exact eq_comm
    · simp [Value.checked, conforms, Except.map]

/-- **Giving values** succeeds exactly when the type takes each of them. -/
theorem defineAll_eq_ok_iff {d d' : Draft} {values : List (String × Value)} :
    d.defineAll values = .ok d' ↔
      (∀ e ∈ values, d.type.Takes e) ∧
        d' = ⟨d.type, values.foldl (fun acc e ↦ Entries.set e.1 e.2 acc) d.given⟩ := by
  unfold defineAll
  induction values generalizing d with
  | nil => simp [pure, Except.pure, eq_comm]
  | cons e values ih =>
    rw [List.foldlM_cons]
    cases hdefine : d.define e.1 e.2 with
    | error err =>
      have refused : ¬d.type.Takes e := by
        intro takes
        rw [define_eq_ok_iff.2 ⟨takes, rfl⟩] at hdefine
        cases hdefine
      simp [bind, Except.bind, refused]
    | ok next =>
      obtain ⟨takes, rfl⟩ := define_eq_ok_iff.1 hdefine
      simp only [bind, Except.bind]
      rw [ih]
      simp [takes]

/-! ### Choosing values -/

/-- The values of the accessors in the order of declaration: for each the one that was given for it,
and no longer counts as given, or else its default value. -/
def choose (typeName : String) :
    List Accessor → (given : List (String × Value)) → Except ReadError (List (String × Value))
  | [], _ => .ok []
  | a :: as, given =>
    match given.lookup a.name with
    | some v => (choose typeName as (Entries.remove a.name given)).map ((a.name, v) :: ·)
    | none =>
      match a.default? with
      | some v => (choose typeName as given).map ((a.name, v) :: ·)
      | none => .error (.missingValue typeName a.name)

variable {typeName : String} {as : List Accessor} {given es : List (String × Value)}

/-- To complete a draft is to choose values and to set them in order. -/
theorem complete_eq_choose (typeName : String) (as : List Accessor)
    (given values : List (String × Value)) :
    complete typeName as given values =
      (choose typeName as given).map (·.foldl (fun acc e ↦ Entries.set e.1 e.2 acc) values) := by
  have after (r : Except ReadError (List (String × Value))) (e : String × Value)
      (values : List (String × Value)) :
      (r.map (e :: ·)).map (·.foldl (fun acc e ↦ Entries.set e.1 e.2 acc) values) =
        r.map (·.foldl (fun acc e ↦ Entries.set e.1 e.2 acc) (Entries.set e.1 e.2 values)) := by
    cases r <;> rfl
  induction as generalizing given values with
  | nil => rfl
  | cons a as ih =>
    rw [complete, choose]
    cases given.lookup a.name with
    | some v =>
      dsimp only
      rw [ih, after]
    | none =>
      cases a.default? with
      | some v =>
        dsimp only
        rw [ih, after]
      | none => rfl

/-- What is chosen for an accessor, and what is left to choose from: the value that was given under
its name no longer counts as given, a default value leaves all that was given. -/
inductive Chosen (given : List (String × Value)) (a : Accessor) :
    Value → List (String × Value) → Prop
  | given {v : Value} (found : given.lookup a.name = some v) :
    Chosen given a v (Entries.remove a.name given)
  | default {v : Value} (absent : given.lookup a.name = none) (default : a.default? = some v) :
    Chosen given a v given

namespace Chosen

variable {a : Accessor} {v : Value} {left : List (String × Value)} (h : Chosen given a v left)
include h

theorem choose_cons :
    choose typeName (a :: as) given = (choose typeName as left).map ((a.name, v) :: ·) := by
  cases h with
  | given found => rw [choose, found]
  | default absent default => rw [choose, absent, default]

theorem found : (given.lookup a.name).or a.default? = some v := by
  cases h with
  | given found => rw [found, Option.some_or]
  | default absent default => rw [absent, Option.none_or, default]

theorem mem {e : String × Value} (he : e ∈ left) : e ∈ given := by
  cases h with
  | given => exact (Entries.sublist_remove a.name given).subset he
  | default => exact he

theorem nodup (distinct : (Entries.names given).Nodup) : (Entries.names left).Nodup := by
  cases h with
  | given => exact Entries.nodup_names_remove distinct
  | default => exact distinct

/-- Nothing is left that was given under the name of the accessor. -/
theorem lookup_left (distinct : (Entries.names given).Nodup) (n : String) :
    left.lookup n = if n = a.name then none else given.lookup n := by
  by_cases same : n = a.name
  · rw [if_pos same, same]
    cases h with
    | given => exact Entries.lookup_remove_self distinct
    | default absent => exact absent
  · rw [if_neg same]
    cases h with
    | given => exact Entries.lookup_remove_of_ne same given
    | default => rfl

end Chosen

/-- Either something is chosen for an accessor, or it has neither kind of value. -/
theorem exists_chosen_or (given : List (String × Value)) (a : Accessor) :
    (∃ v left, Chosen given a v left) ∨ given.lookup a.name = none ∧ a.default? = none := by
  cases hgiven : given.lookup a.name with
  | some v => exact .inl ⟨v, _, .given hgiven⟩
  | none =>
    cases hdefault : a.default? with
    | some v => exact .inl ⟨v, _, .default hgiven hdefault⟩
    | none => exact .inr ⟨rfl, rfl⟩

theorem choose_cons_of_none {a : Accessor} (absent : given.lookup a.name = none)
    (noDefault : a.default? = none) :
    choose typeName (a :: as) given = .error (.missingValue typeName a.name) := by
  rw [choose, absent, noDefault]

/-- If values are chosen at all, then one for the first accessor, and others from what is left. -/
theorem choose_cons_eq_ok {a : Accessor} (h : choose typeName (a :: as) given = .ok es) :
    ∃ v rest left, es = (a.name, v) :: rest ∧ choose typeName as left = .ok rest ∧
      Chosen given a v left := by
  rcases exists_chosen_or given a with ⟨v, left, chosen⟩ | ⟨absent, noDefault⟩
  · rw [chosen.choose_cons] at h
    cases hrest : choose typeName as left with
    | error err =>
      rw [hrest] at h
      cases h
    | ok rest =>
      rw [hrest] at h
      cases h
      exact ⟨v, rest, left, rfl, hrest, chosen⟩
  · rw [choose_cons_of_none absent noDefault] at h
    cases h

theorem names_choose (h : choose typeName as given = .ok es) :
    Entries.names es = as.map Accessor.name := by
  induction as generalizing given es with
  | nil =>
    cases h
    rfl
  | cons a as ih =>
    obtain ⟨v, rest, left, rfl, hrest, -⟩ := choose_cons_eq_ok h
    rw [Entries.names_cons, ih hrest, List.map_cons]

/-- A chosen value was given, or is a default value. -/
theorem mem_choose (h : choose typeName as given = .ok es) {e : String × Value} (he : e ∈ es) :
    e ∈ given ∨ ∃ a ∈ as, a.name = e.1 ∧ a.default? = some e.2 := by
  induction as generalizing given es with
  | nil =>
    cases h
    cases he
  | cons a as ih =>
    obtain ⟨v, rest, left, rfl, hrest, chosen⟩ := choose_cons_eq_ok h
    rcases List.mem_cons.1 he with rfl | he
    · cases chosen with
      | given found => exact .inl (Entries.mem_of_lookup found)
      | default _ default => exact .inr ⟨a, List.mem_cons_self, rfl, default⟩
    · rcases ih hrest he with mem | ⟨b, hb, found⟩
      · exact .inl (chosen.mem mem)
      · exact .inr ⟨b, List.mem_cons_of_mem a hb, found⟩

/-- Where all accessors have names of their own and a value each, just these are chosen. -/
theorem choose_of_names (distinct : (as.map Accessor.name).Nodup)
    (names : Entries.names given = as.map Accessor.name) :
    choose typeName as given = .ok given := by
  induction as generalizing given with
  | nil =>
    obtain rfl := List.map_eq_nil_iff.1 names
    rfl
  | cons a as ih =>
    cases given with
    | nil => cases names
    | cons e given =>
      obtain ⟨n, v⟩ := e
      obtain ⟨rfl, rest⟩ := List.cons_eq_cons.1 names
      have found : ((a.name, v) :: given).lookup a.name = some v := by simp
      rw [choose, found, Entries.remove, if_pos rfl, ih (List.nodup_cons.1 distinct).2 rest]
      rfl

end Draft

/-- The default value of the last accessor of a name. -/
def Accessor.lastDefault (as : List Accessor) (n : String) : Option Value :=
  (as.reverse.find? (·.name == n)).bind Accessor.default?

theorem Accessor.lastDefault_cons (a : Accessor) (as : List Accessor) (n : String) :
    lastDefault (a :: as) n =
      if n ∈ as.map Accessor.name then lastDefault as n
      else if n = a.name then a.default? else none := by
  have iff : as.reverse.find? (·.name == n) = none ↔ n ∉ as.map Accessor.name := by
    simp
  rw [lastDefault, lastDefault, List.reverse_cons, List.find?_append]
  by_cases later : n ∈ as.map Accessor.name
  · obtain ⟨b, hb⟩ := Option.ne_none_iff_exists'.1 (mt iff.1 (not_not_intro later))
    simp [later, hb]
  · rw [iff.2 later, if_neg later, Option.none_or, List.find?_singleton]
    by_cases same : n = a.name
    · simp [same]
    · simp [same, Ne.symm same]

/-- **Which value counts under a name**: the given one or else the default one if the name is
declared once, and the default value of the last accessor if it is declared more often. -/
theorem Draft.lookup_choose {typeName : String} {as : List Accessor}
    {given es : List (String × Value)} (distinct : (Entries.names given).Nodup)
    (h : choose typeName as given = .ok es) (n : String) :
    es.reverse.lookup n =
      if (as.map Accessor.name).count n = 1 then (given.lookup n).or (Accessor.lastDefault as n)
      else Accessor.lastDefault as n := by
  induction as generalizing given es with
  | nil =>
    cases h
    rfl
  | cons a as ih =>
    obtain ⟨v, rest, left, rfl, hrest, chosen⟩ := choose_cons_eq_ok h
    have names : Entries.names rest = as.map Accessor.name := names_choose hrest
    rw [Entries.lookup_reverse_cons, Accessor.lastDefault_cons, names, List.map_cons,
      List.count_cons, ih (chosen.nodup distinct) hrest]
    have rest := chosen.lookup_left distinct n
    by_cases same : n = a.name
    · subst same
      have gone : left.lookup a.name = none := by rw [rest, if_pos rfl]
      by_cases later : a.name ∈ as.map Accessor.name
      · have more := Nat.ne_of_gt (List.count_pos_iff.2 later)
        simp [later, more, gone]
      · have zero := List.count_eq_zero.2 later
        simp [later, zero, chosen.found]
    · have others : left.lookup n = given.lookup n := by rw [rest, if_neg same]
      have count : (if (a.name == n) = true then 1 else 0) = 0 := by simp [Ne.symm same]
      rw [count, Nat.add_zero, others]
      by_cases later : n ∈ as.map Accessor.name
      · simp [later]
      · have zero := List.count_eq_zero.2 later
        simp [later, zero, same]

/-! ### What is built -/

/-- To build a draft of an annotation type is to choose values and to set them in order. -/
theorem Draft.build_eq_choose (t : TypeDecl) (given : List (String × Value)) :
    (Draft.mk t given).build =
      if t.isAnnotationType then
        (choose t.name t.accessors given).map fun es ↦ Stated.mk t (Entries.ofList es)
      else .error (.typeMismatch "annotation type" t.name) := by
  rw [build, complete_eq_choose]
  cases choose t.name t.accessors given <;> rfl

namespace Stated

variable {t : TypeDecl} {values : List (String × Value)} {s : Stated}

/-- Once all values have been given, the draft is built. -/
theorem of_eq_build {d : Draft} (h : (Draft.empty t).defineAll values = .ok d) :
    Stated.of t values = d.build := by
  rw [Stated.of, h]
  rfl

theorem of_eq_build_of_takes (takes : ∀ e ∈ values, t.Takes e) :
    Stated.of t values = (Draft.mk t (Entries.ofList values)).build :=
  of_eq_build (Draft.defineAll_eq_ok_iff.2 ⟨takes, rfl⟩)

/-- **What is built**: the type takes all values, is an annotation type, and for each of its
accessors a value can be chosen. -/
theorem of_eq_ok_iff :
    Stated.of t values = .ok s ↔
      (∀ e ∈ values, t.Takes e) ∧ t.isAnnotationType = true ∧
        ∃ es, Draft.choose t.name t.accessors (Entries.ofList values) = .ok es ∧
          s = ⟨t, Entries.ofList es⟩ := by
  cases hd : (Draft.empty t).defineAll values with
  | error err =>
    have refused : ¬∀ e ∈ values, t.Takes e := by
      intro takes
      rw [Draft.defineAll_eq_ok_iff.2 ⟨takes, rfl⟩] at hd
      cases hd
    rw [Stated.of, hd]
    simp only [bind, Except.bind, refused, false_and, reduceCtorEq]
  | ok d =>
    have takes : ∀ e ∈ values, t.Takes e := (Draft.defineAll_eq_ok_iff.1 hd).1
    rw [of_eq_build_of_takes takes, Draft.build_eq_choose, and_iff_right takes]
    by_cases sort : t.isAnnotationType = true
    · rw [if_pos sort, and_iff_right sort]
      cases Draft.choose t.name t.accessors (Entries.ofList values) with
      | error err => simp [Except.map]
      | ok es => simp [Except.map, eq_comm]
    · simp [sort]

theorem type_of (h : Stated.of t values = .ok s) : s.type = t := by
  obtain ⟨-, -, es, -, rfl⟩ := of_eq_ok_iff.1 h
  rfl

/-- There is one value for each declared name, in the order of the first declarations. -/
def Arranged (s : Stated) : Prop :=
  Entries.names s.values = s.type.accessorNames.eraseDups

instance (s : Stated) : Decidable s.Arranged :=
  inferInstanceAs (Decidable (Entries.names s.values = s.type.accessorNames.eraseDups))

theorem arranged_of (h : Stated.of t values = .ok s) : s.Arranged := by
  obtain ⟨-, -, es, choose, rfl⟩ := of_eq_ok_iff.1 h
  rw [Arranged, Entries.names_ofList, Draft.names_choose choose]
  rfl

namespace Arranged

variable (h : s.Arranged)
include h

/-- Each name occurs once. -/
theorem nodup : (Entries.names s.values).Nodup := by
  rw [Arranged] at h
  rw [h]
  exact Entries.nodup_eraseDups _

theorem mem_names_iff {n : String} : n ∈ Entries.names s.values ↔ n ∈ s.type.accessorNames := by
  rw [Arranged] at h
  rw [h, List.mem_eraseDups]

/-- Each value is answered to the accessors of its name that the type owns. -/
theorem get_of_mem (owned : s.type.Owned) {a : Accessor} (ha : a ∈ s.type.accessors)
    {e : String × Value} (he : e ∈ s.values) (name : a.name = e.1) :
    s.get a.handle = .ok e.2 := by
  refine get_eq_ok_iff.2 ⟨TypeDecl.declares_of_mem owned ha, ?_⟩
  rw [Accessor.name_handle, name]
  exact Entries.lookup_of_mem h.nodup he

end Arranged

theorem lookup_of (h : Stated.of t values = .ok s) (n : String) :
    s.values.lookup n =
      if t.accessorNames.count n = 1 then
        (values.reverse.lookup n).or (Accessor.lastDefault t.accessors n)
      else Accessor.lastDefault t.accessors n := by
  obtain ⟨-, -, es, choose, rfl⟩ := of_eq_ok_iff.1 h
  rw [Entries.lookup_ofList, Draft.lookup_choose (Entries.nodup_names_ofList values) choose,
    Entries.lookup_ofList]
  rfl

/-- A value that is built was given, or is a default value of an accessor of its name. -/
theorem mem_of (h : Stated.of t values = .ok s) {e : String × Value} (he : e ∈ s.values) :
    e ∈ values ∨ ∃ a ∈ t.accessors, a.name = e.1 ∧ a.default? = some e.2 := by
  obtain ⟨-, -, es, choose, rfl⟩ := of_eq_ok_iff.1 h
  rcases Draft.mem_choose choose (Entries.mem_of_mem_ofList he) with given | default
  · exact .inl (Entries.mem_of_mem_ofList given)
  · exact .inr default

/-- Values in the order of the accessors, one for each, are kept as they are. -/
theorem of_values (sort : t.isAnnotationType = true) (distinct : t.accessorNames.Nodup)
    (names : Entries.names values = t.accessorNames) (takes : ∀ e ∈ values, t.Takes e) :
    Stated.of t values = .ok ⟨t, values⟩ := by
  have same : Entries.ofList values = values := Entries.ofList_of_nodup (names ▸ distinct)
  refine of_eq_ok_iff.2 ⟨takes, sort, values, ?_, by rw [same]⟩
  rw [same, Draft.choose_of_names distinct names]

end Stated

/-- What is detached is arranged too. -/
theorem Description.arranged_of_detachWithin {limit room : Nat} {d : Description} {s : Stated}
    (h : (detachWithin limit (room + 1) d).result = .ok s) : s.Arranged := by
  obtain ⟨es, hes, h⟩ := Eval.result_bind_eq_ok.1 h
  cases h
  rw [Stated.Arranged, Entries.names_ofList, (of_detachOn hes).1]
  rfl

end Annotations
