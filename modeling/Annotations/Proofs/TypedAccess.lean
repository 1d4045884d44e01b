import Annotations.Proofs.ByName
import Annotations.Proofs.Faults

/-!
# Typed access

A value is asked for in two ways: as a **target**, which reads it into a type of its own, and by a
**kind**, which it conforms to or not. The two are defined apart, and each is named in errors of its
own. Here they are compared, and both with the equality of values.

* **Reading as a target undoes going back to a value** (`Target.read?_eq_some_iff`), for every
  target; there is no other value that is read into the same.
* **A target that has a kind is read exactly from the values that conform to it**
  (`Target.isSome_read?_eq_conforms`), and errors name both alike (`Target.expected_eq_name`). So
  asking an annotation in the one way or in the other is the same (`Target.typed_iff_kinded`).
* Equal values are alike in all but the annotations in them, and those have types of the same name
  (`Value.alikeInNames_of_equal`). Kinds and targets see no more than that
  (`Value.AlikeInNames.conforms_eq`, `Value.Alike.isSome_read?_eq`), hence neither does a draft
  (`Draft.define_eq_error_congr`): **typed access does not see how a value is represented**
  (`Value.typed_alike_of_equal`).
-/

namespace Annotations

/-! ### Reading as a target -/

namespace Target

variable {t : Target} {k : Kind}

/-- A list is read element by element. -/
private theorem mapM_eq_some_iff {α β : Type} {f : α → Option β} {g : β → α}
    (element : ∀ a b, f a = some b ↔ g b = a) {as : List α} {bs : List β} :
    as.mapM f = some bs ↔ bs.map g = as := by
  induction as generalizing bs with
  | nil => simp [eq_comm]
  | cons a as ih =>
    rw [List.mapM_cons]
    constructor
    · intro h
      obtain ⟨b, hb, h⟩ := Option.bind_eq_some_iff.1 h
      obtain ⟨rest, hrest, h⟩ := Option.bind_eq_some_iff.1 h
      cases h
      rw [List.map_cons, (element a b).1 hb, ih.1 hrest]
    · intro h
      obtain ⟨b, rest, rfl, rfl, hrest⟩ := List.map_eq_cons_iff.1 h
      simp [(element _ b).2 rfl, ih.2 hrest]

/-- **Reading undoes going back**, and the other way round. -/
theorem read?_eq_some_iff {t : Target} {v : Value} {x : t.Carrier} :
    t.read? v = some x ↔ t.toValue x = v := by
  induction t generalizing v with
  | list t ih =>
    have array (vs : List Value) (xs : List t.Carrier) :
        vs.mapM t.read? = some xs ↔ xs.map t.toValue = vs := mapM_eq_some_iff fun _ _ ↦ ih
    constructor
    · intro h
      cases v with
      | array vs => exact congrArg Value.array ((array vs x).1 h)
      | _ => cases h
    · rintro rfl
      exact (array _ x).2 rfl
  | _ =>
    constructor
    · intro h
      cases v <;> cases h <;> rfl
    · rintro rfl
      rfl

private theorem isSome_mapM {α β : Type} (f : α → Option β) (as : List α) :
    (as.mapM f).isSome = as.all fun a ↦ (f a).isSome := by
  induction as with
  | nil => rfl
  | cons a as ih =>
    rw [List.mapM_cons, List.all_cons, ← ih]
    cases f a with
    | none => rfl
    | some b => cases as.mapM f <;> rfl

/-! ### Targets that are kinds -/

/-- **A value is read as a target exactly if it conforms to the target's kind.** -/
theorem isSome_read?_eq_conforms (h : t.kind? = some k) (v : Value) :
    (t.read? v).isSome = v.conforms k := by
  induction t generalizing k v with
  | list t ih =>
    obtain ⟨element, hk, rfl⟩ := Option.map_eq_some_iff.1 h
    cases v with
    | array vs =>
      show (vs.mapM t.read?).isSome = vs.all (Value.conforms element)
      rw [isSome_mapM]
      simp only [ih hk]
    | _ => rfl
  | constant => cases h
  | nested => cases h
  | any => cases h
  | _ =>
    cases h
    cases v <;> rfl

theorem expected_eq_name (h : t.kind? = some k) : t.expected = k.name := by
  induction t generalizing k with
  | list t ih =>
    obtain ⟨element, hk, rfl⟩ := Option.map_eq_some_iff.1 h
    rw [expected, ih hk, Kind.name_array]
  | constant => cases h
  | nested => cases h
  | any => cases h
  | _ =>
    cases h
    rfl

/-- Reading as a target is checking the kind, and ends in the same error. -/
theorem map_toValue_read (h : t.kind? = some k) (v : Value) :
    (t.read v).map t.toValue = v.checked k := by
  have conforms := isSome_read?_eq_conforms h v
  rw [read, Value.checked, ← conforms, expected_eq_name h]
  cases hx : t.read? v with
  | none => rfl
  | some x =>
    rw [← read?_eq_some_iff.1 hx]
    rfl

/-- The lists of lists … of a target. -/
def listOf (t : Target) : (depth : Nat) → Target
  | 0 => t
  | n + 1 => list (listOf t n)

/-- The targets without a kind are constants, annotations, any values, and lists of these. -/
theorem kind?_eq_none_iff :
    t.kind? = none ↔ ∃ n, t = constant.listOf n ∨ t = nested.listOf n ∨ t = any.listOf n := by
  constructor
  · intro h
    induction t with
    | list t ih =>
      obtain ⟨n, base⟩ := ih (Option.map_eq_none_iff.1 h)
      refine ⟨n + 1, ?_⟩
      rcases base with rfl | rfl | rfl <;> simp [listOf]
    | constant => exact ⟨0, .inl rfl⟩
    | nested => exact ⟨0, .inr (.inl rfl)⟩
    | any => exact ⟨0, .inr (.inr rfl)⟩
    | _ => cases h
  · rintro ⟨n, h⟩
    induction n generalizing t with
    | zero => rcases h with rfl | rfl | rfl <;> rfl
    | succ n ih =>
      rcases h with rfl | rfl | rfl
      · exact Option.map_eq_none_iff.2 (ih (.inl rfl))
      · exact Option.map_eq_none_iff.2 (ih (.inr (.inl rfl)))
      · exact Option.map_eq_none_iff.2 (ih (.inr (.inr rfl)))

/-- **Reading as a target and checking its kind are the same.** Every target has a kind, but for
constants, annotations, any values and lists of these. With the kind,

* a value is read as the target exactly if it conforms to the kind, and it is the value of what was
  read;
* messages name both alike;
* asking an annotation for a value that is read as the target, and for one of the kind, are one
  reading: both end in the same value or in the same error. -/
theorem typed_iff_kinded (t : Target) :
    (t.kind? = none ↔ ∃ n, t = constant.listOf n ∨ t = nested.listOf n ∨ t = any.listOf n) ∧
    ∀ k, t.kind? = some k →
      (∀ v, (∃ x, t.read? v = some x) ↔ v.conforms k = true) ∧
      (∀ v x, t.read? v = some x ↔ t.toValue x = v) ∧
      t.expected = k.name ∧
      ∀ (d : Description) (a : Handle), t.toValue <$> d.getAs a t = d.getOfKind a k := by
  refine ⟨kind?_eq_none_iff, fun k h ↦ ⟨fun v ↦ ?_, fun _ _ ↦ read?_eq_some_iff,
    expected_eq_name h, fun d a ↦ ?_⟩⟩
  · rw [← Option.isSome_iff_exists, isSome_read?_eq_conforms h]
  · rw [Description.getAs, Description.getOfKind, map_bind]
    refine bind_congr fun v ↦ ?_
    rw [← map_toValue_read h]
    exact Eval.ext (Eval.result_map _ _) (Eval.trace_map _ _)

/-- A grid of numbers, which is read as lists of lists of numbers of its own width only. -/
theorem typed_iff_kinded_grid :
    (list (list int)).kind? = some (.array (.array .int)) ∧
    (∃ x, (list (list int)).read? (.array [.array [.int 1, .int 2], .array []]) = some x) ∧
    ¬∃ x, (list (list int)).read? (.array [.array [.int 1, .long 2], .array []]) = some x := by
  obtain ⟨read, -⟩ := (typed_iff_kinded (list (list int))).2 (.array (.array .int)) rfl
  refine ⟨rfl, (read _).2 rfl, fun some ↦ ?_⟩
  exact absurd ((read _).1 some) (by decide)

end Target

/-! ### Values that are alike -/

namespace Value

/-- Alike in annotations whose types have the same name. -/
abbrev AlikeInNames : Value → Value → Prop :=
  Alike fun d e ↦ d.typeName = e.typeName

variable {v w : Value}

private theorem all_eq_all {P : Value → Bool} {vs ws : List Value}
    (h : List.Forall₂ (fun v w ↦ P v = P w) vs ws) : vs.all P = ws.all P := by
  induction h with
  | nil => rfl
  | cons first _ ih => rw [List.all_cons, List.all_cons, first, ih]

/-- Kinds see only the names of the types of annotations. -/
theorem AlikeInNames.conforms_eq (h : AlikeInNames v w) (k : Kind) :
    v.conforms k = w.conforms k := by
  induction h generalizing k with
  | constant same =>
    cases k with
    | enumeration n => simp only [conforms, (Constant.same_iff.1 same).1]
    | _ => rfl
  | nested related =>
    cases k with
    | nested n => simp only [conforms, related]
    | _ => rfl
  | array length _ ih =>
    cases k with
    | array k =>
      rw [conforms_array, conforms_array]
      exact all_eq_all (List.forall₂_iff_zip.2 ⟨length, fun hxy ↦ ih _ _ hxy k⟩)
    | _ => rfl
  | _ => cases k <;> rfl

theorem AlikeInNames.kindName_eq (h : AlikeInNames v w) : v.kindName = w.kindName := by
  induction h with
  | constant same => exact (Constant.same_iff.1 same).1
  | nested related => exact related
  | @array vs ws length _ ih =>
    cases vs with
    | nil =>
      obtain rfl := List.length_eq_zero_iff.1 length.symm
      rfl
    | cons x xs =>
      cases ws with
      | nil => cases length
      | cons y ys => rw [kindName_array_cons, kindName_array_cons, ih x y List.mem_cons_self]
  | _ => rfl

/-- What can be read of a value as a target does not depend on its annotations. -/
theorem Alike.isSome_read?_eq {R : Description → Description → Prop} (h : Alike R v w)
    (t : Target) : (t.read? v).isSome = (t.read? w).isSome := by
  induction t generalizing v w with
  | list t ih =>
    cases h with
    | @array vs ws length elements =>
      show (vs.mapM t.read?).isSome = (ws.mapM t.read?).isSome
      rw [Target.isSome_mapM, Target.isSome_mapM]
      exact all_eq_all (List.forall₂_iff_zip.2 ⟨length, fun hxy ↦ ih (elements _ _ hxy)⟩)
    | _ => rfl
  | _ => cases h <;> rfl

end Value

/-- Equal annotations have types of the same name. -/
theorem Description.typeName_of_equalWithin {limit room : Nat} {d e : Description}
    (h : (equalWithin limit room d e).result = .ok true) : d.typeName = e.typeName := by
  cases room with
  | zero => cases h
  | succ room =>
    have comparable := (equalWithin_succ_iff.1 h).1
    simp only [TypeDecl.comparable, Bool.and_eq_true, beq_iff_eq] at comparable
    exact comparable.1

/-- Equal values are alike in names. -/
theorem Value.alikeInNames_of_equal {limit : Nat} {v w : Value}
    (h : (v.equal limit w).result = .ok true) : v.AlikeInNames w :=
  (equalBy_eq_true_iff.1 h).mono fun _ _ ↦ Description.typeName_of_equalWithin

/-! ### Values that are given -/

/-- The values are given under the same name and are alike in names. -/
def AlikeEntries (e e' : String × Value) : Prop :=
  e.1 = e'.1 ∧ e.2.AlikeInNames e'.2

namespace AlikeEntries

variable {e e' : String × Value} {t : TypeDecl} {err : ReadError}

theorem refl (e : String × Value) : AlikeEntries e e :=
  ⟨rfl, .refl fun _ _ ↦ rfl⟩

theorem symm (h : AlikeEntries e e') : AlikeEntries e' e :=
  ⟨h.1.symm, h.2.symm.mono fun _ _ ↦ Eq.symm⟩

theorem takes_iff (h : AlikeEntries e e') : t.Takes e ↔ t.Takes e' := by
  obtain ⟨name, alike⟩ := h
  simp only [TypeDecl.Takes, name, alike.conforms_eq]

private theorem refuses (h : AlikeEntries e e') (refused : t.Refuses e err) : t.Refuses e' err := by
  obtain ⟨name, alike⟩ := h
  obtain ⟨n, w⟩ := e'
  cases refused with
  | undeclared new =>
    cases name
    exact .undeclared new
  | mismatch found other =>
    cases name
    rw [alike.conforms_eq] at other
    rw [alike.kindName_eq]
    exact .mismatch found other

/-- A type refuses both or neither, and with the same error. -/
theorem refuses_iff (h : AlikeEntries e e') : t.Refuses e err ↔ t.Refuses e' err :=
  ⟨h.refuses, h.symm.refuses⟩

end AlikeEntries

namespace Draft

variable {d d' : Draft} {err : ReadError}

/-- **Of two alike values a draft refuses both or neither**, and with the same error. What was given
before does not matter. -/
theorem define_eq_error_congr (type : d.type = d'.type) {e e' : String × Value}
    (h : AlikeEntries e e') :
    d.define e.1 e.2 = .error err ↔ d'.define e'.1 e'.2 = .error err := by
  rw [define_eq_error_iff, define_eq_error_iff, type]
  exact h.refuses_iff

/-- So values that are given in order are refused alike. -/
theorem defineAll_eq_error_congr (type : d.type = d'.type) {es es' : List (String × Value)}
    (h : List.Forall₂ AlikeEntries es es') :
    d.defineAll es = .error err ↔ d'.defineAll es' = .error err := by
  unfold defineAll
  induction h generalizing d d' with
  | nil => simp [pure, Except.pure]
  | @cons e e' es es' first _ ih =>
    rw [List.foldlM_cons, List.foldlM_cons]
    cases hd : d.define e.1 e.2 with
    | error err' =>
      rw [(define_eq_error_congr type first).1 hd]
      rfl
    | ok next =>
      cases hd' : d'.define e'.1 e'.2 with
      | error err' => cases hd.symm.trans ((define_eq_error_congr type first).2 hd')
      | ok next' =>
        obtain ⟨-, rfl⟩ := define_eq_ok_iff.1 hd
        obtain ⟨-, rfl⟩ := define_eq_ok_iff.1 hd'
        exact ih type

end Draft

/-- **Alike values make an annotation or none**, and none for the same reason. -/
theorem Stated.of_eq_error_congr {t : TypeDecl} {es es' : List (String × Value)} {err : ReadError}
    (h : List.Forall₂ AlikeEntries es es') :
    Stated.of t es = .error err ↔ Stated.of t es' = .error err := by
  have names : Entries.names es = Entries.names es' := by
    induction h with
    | nil => rfl
    | cons first _ ih => rw [Entries.names_cons, Entries.names_cons, first.1, ih]
  have takes : (∀ e ∈ es, t.Takes e) ↔ ∀ e ∈ es', t.Takes e := by
    clear names
    induction h with
    | nil => rfl
    | cons first _ ih => rw [List.forall_mem_cons, List.forall_mem_cons, first.takes_iff, ih]
  have refused : (Draft.empty t).defineAll es = .error err ↔
      (Draft.empty t).defineAll es' = .error err := Draft.defineAll_eq_error_congr rfl h
  rw [Draft.defineAll_eq_error_iff, Draft.defineAll_eq_error_iff] at refused
  rw [of_eq_error_iff, of_eq_error_iff, names, takes]
  exact or_congr_left refused

namespace Value

variable {limit : Nat} {v w : Value}

/-- **Typed access does not see how a value is represented.** Of two values that are found equal
under some limit,

* both conform to the same kinds, and the name of their kind is the same;
* both can be read as the same targets;
* a draft takes both or refuses both with the same error, whatever was given to it before;
* an annotation is built from values among which the one is, or it fails with the same error, as it
  does with the other one in its place. -/
theorem typed_alike_of_equal (h : (v.equal limit w).result = .ok true) :
    (∀ k, v.conforms k = w.conforms k) ∧ v.kindName = w.kindName ∧
    (∀ t : Target, (t.read? v).isSome = (t.read? w).isSome) ∧
    (∀ (d d' : Draft) n err, d.type = d'.type →
      (d.define n v = .error err ↔ d'.define n w = .error err)) ∧
    ∀ t before n after err,
      Stated.of t (before ++ (n, v) :: after) = .error err ↔
        Stated.of t (before ++ (n, w) :: after) = .error err := by
  have alike : v.AlikeInNames w := alikeInNames_of_equal h
  have entry (n : String) : AlikeEntries (n, v) (n, w) := ⟨rfl, alike⟩
  refine ⟨alike.conforms_eq, alike.kindName_eq, alike.isSome_read?_eq,
    fun d d' n err type ↦ Draft.define_eq_error_congr type (entry n),
    fun t before n after err ↦ Stated.of_eq_error_congr ?_⟩
  have same (es : List (String × Value)) : List.Forall₂ AlikeEntries es es :=
    List.forall₂_same.2 fun e _ ↦ .refl e
  exact List.rel_append (same before) (.cons (entry n) (same after))

/-- A list of one live marker. -/
def liveMarkers : Value :=
  .array [.nested (.ofInstance (.marker ⟨7⟩))]

/-- The same list with a stated marker. -/
def statedMarkers : Value :=
  .array [.nested (.stated ⟨Marker.liveType.describe, [("value", .int 7)]⟩)]

/-- Either list can be read as annotations, and neither as constants; a draft of a type that wants
other annotations refuses both. -/
theorem typed_alike_of_equal_markers :
    (liveMarkers.equal 1 statedMarkers).result = .ok true ∧
    ((Target.list .nested).read? statedMarkers).isSome = true ∧
    ((Target.list .constant).read? statedMarkers).isSome = false ∧
    (Draft.empty (.ofDrafts "com.example.Box"
      [⟨"items", .array (.nested "com.example.Other"), none⟩])).define "items" statedMarkers =
        .error (.typeMismatch "com.example.Other[]" "com.example.Marker[]") := by
  have equal : (liveMarkers.equal 1 statedMarkers).result = .ok true := rfl
  obtain ⟨-, -, read, define, -⟩ := typed_alike_of_equal equal
  exact ⟨equal, (read _).symm.trans rfl, (read _).symm.trans rfl, (define _ _ _ _ rfl).1 rfl⟩

end Value

end Annotations
