import Annotations.Description.Prepared
import Annotations.Proofs.Alike
import Annotations.Proofs.Kinded
import Annotations.Proofs.TypedAccess

/-!
# Instances that are restored

An instance of an annotation class is restored if what its annotation is detached to can be loaded
as the same instance again. On the way there are the answers of its accessors, their detached
values, and what is read of these by name; lists have to keep their elements in order, and nested
annotations and constants are prepared and loaded in turn.

* The values of a list are detached one by one (`Value.detachBy_array_iff`), and so are the
  accessors of an annotation (`Description.detachOn_eq_ok_iff`). With this the **snapshots** of the
  catalogue are computed (`Retry.snapshot`, `Retry.detach_eq_ok_iff`).
* An annotation is read by name from its snapshot (`Stated.namedAs_of_lookup`). All parts of a retry
  annotation are found again but for its classes, which are looked up in the catalogue
  (`Retry.materialize_snapshot`).

So markers are restored under every limit but zero, and retry annotations **exactly if** there is
room for their markers and all their classes are of the catalogue (`Description.restored_iff`).

That a live annotation is loaded as its own object needs only that the class knows its instances
(`LawfulAnnotationClass`), and nothing of what its accessors answer (`Description.loadsAs_live`).
-/

namespace Annotations

/-! ### Annotation classes -/

/-- The laws of an annotation class: its instances are objects of its type, and it finds each of
them by the object. -/
class LawfulAnnotationClass (α : Type) [AnnotationClass α] where
  /-- The object of an instance. -/
  object : α → Instance
  /-- The objects are of the type of the class. -/
  type_object (x : α) : (object x).type = AnnotationClass.type α
  /-- An instance is found by its object. -/
  ofInstance?_eq_some_iff {o : Instance} {x : α} :
    AnnotationClass.ofInstance? o = some x ↔ object x = o

instance : LawfulAnnotationClass Marker where
  object := .marker
  type_object _ := rfl
  ofInstance?_eq_some_iff {o _} := by cases o <;> simp [AnnotationClass.ofInstance?, eq_comm]

instance : LawfulAnnotationClass Other where
  object := .other
  type_object _ := rfl
  ofInstance?_eq_some_iff {o _} := by cases o <;> simp [AnnotationClass.ofInstance?, eq_comm]

instance : LawfulAnnotationClass Retry where
  object := .retry
  type_object _ := rfl
  ofInstance?_eq_some_iff {o _} := by cases o <;> simp [AnnotationClass.ofInstance?, eq_comm]

open LawfulAnnotationClass (object type_object ofInstance?_eq_some_iff)

/-- Every accessor gives a value of its kind. -/
def Stated.WellKinded (s : Stated) : Prop :=
  ∀ a ∈ s.type.accessors, ∃ v, ((Description.stated s).getOfKind a.handle a.kind).result = .ok v

namespace Description

variable {α : Type} [AnnotationClass α]

/-- The annotation is prepared for the class and loaded as the instance, and nothing live is asked
for that. -/
def LoadsAs (d : Description) (x : α) : Prop :=
  ∃ p : Prepared α, d.prepare α = .ok p ∧ p.load = pure x

theorem loadsAs_stated_iff {s : Stated} (type : s.type.name = (AnnotationClass.type α).name)
    {x : α} : (stated s).LoadsAs x ↔ AnnotationClass.materialize (stated s) = pure x := by
  have prepared : (stated s).prepare α = .ok ⟨stated s⟩ := if_pos (beq_iff_eq.2 type)
  constructor
  · rintro ⟨p, preparing, loading⟩
    cases prepared.symm.trans preparing
    exact loading
  · intro made
    exact ⟨_, prepared, made⟩

variable [LawfulAnnotationClass α]

/-- **A live annotation is loaded as its own object**, with whatever inspector it is read. -/
theorem loadsAs_live (i : Inspector) (x : α) : (live ⟨object x, i⟩).LoadsAs x := by
  have found : AnnotationClass.ofInstance? (object x) = some x := ofInstance?_eq_some_iff.2 rfl
  have belongs : (live ⟨object x, i⟩).belongsTo α = true := Option.isSome_of_eq_some found
  refine ⟨_, if_pos belongs, ?_⟩
  simp only [Prepared.load, found]

/-- The annotation of an instance is detached to the stated one, which gives values of the declared
kinds and is loaded as the same instance. -/
structure Restores (limit : Nat) (x : α) (s : Stated) : Prop where
  detached : ((ofInstance (object x)).detach limit).result = .ok s
  wellKinded : s.WellKinded
  loaded : (stated s).LoadsAs x

end Description

/-! ### Detaching -/

private theorem exists_of_forall₂ {α β : Type} {R : α → β → Prop} {as : List α} {bs : List β}
    (h : List.Forall₂ R as bs) {a : α} (ha : a ∈ as) : ∃ b ∈ bs, R a b := by
  induction h with
  | nil => cases ha
  | cons first _ ih =>
    rcases List.mem_cons.1 ha with rfl | ha
    · exact ⟨_, List.mem_cons_self, first⟩
    · obtain ⟨b, hb, related⟩ := ih ha
      exact ⟨b, List.mem_cons_of_mem _ hb, related⟩

/-- **An array is detached element by element.** -/
theorem Value.detachBy_array_iff {f : Description → Eval Stated} {vs ws : List Value} :
    (detachBy f (.array vs)).result = .ok (.array ws) ↔
      List.Forall₂ (fun v w ↦ (detachBy f v).result = .ok w) vs ws := by
  have elements : (detachAllBy f vs).result = .ok ws ↔
      List.Forall₂ (fun v w ↦ (detachBy f v).result = .ok w) vs ws := by
    refine ⟨forall₂_of_detachAllBy, fun h ↦ ?_⟩
    induction h with
    | nil => rfl
    | cons first _ ih =>
      rw [detachAllBy, Eval.result_bind_of_eq_ok first, Eval.result_bind_of_eq_ok ih]
      rfl
  rw [← elements, detachBy, Eval.result_bind_eq_ok]
  simp

/-- **The accessors are read and detached one by one.** -/
theorem Description.detachOn_eq_ok_iff {f : Value → Eval Value} {d : Description}
    {as : List Accessor} {es : List (String × Value)} :
    (detachOn f d as).result = .ok es ↔
      List.Forall₂ (fun a e ↦ a.name = e.1 ∧ ∃ v, (d.get a.handle).result = .ok v ∧
        (f v).result = .ok e.2) as es := by
  induction as generalizing es with
  | nil => simp [detachOn, eq_comm]
  | cons a as ih =>
    rw [List.forall₂_cons_left_iff, detachOn]
    simp only [Eval.result_bind_eq_ok, Eval.result_pure, Except.ok.injEq]
    constructor
    · rintro ⟨v, read, w, detached, rest, others, rfl⟩
      exact ⟨(a.name, w), rest, ⟨rfl, v, read, detached⟩, ih.1 others, rfl⟩
    · rintro ⟨⟨n, w⟩, rest, ⟨rfl, v, read, detached⟩, others, rfl⟩
      exact ⟨v, read, w, detached, rest, ih.2 others, rfl⟩

/-! ### Snapshots -/

/-- The constant of a color by its name. -/
def Color.snapshot (c : Color) : Constant :=
  .stated Color.liveType.describe c.name

/-- What a marker is detached to. -/
def Marker.snapshot (m : Marker) : Stated :=
  ⟨Marker.liveType.describe, [("value", .int m.value)]⟩

def Other.snapshot (o : Other) : Stated :=
  ⟨Other.liveType.describe, [("value", .int o.value)]⟩

/-- What a retry annotation is detached to. -/
def Retry.snapshot (r : Retry) : Stated where
  type := Retry.liveType.describe
  values :=
    [("attempts", .int r.attempts),
      ("backoff", .constant r.backoff.snapshot),
      ("retry_on", .array (r.retryOn.map fun c ↦ .constant c.snapshot)),
      ("target", .type r.target.describe),
      ("exceptions", .array (r.exceptions.map fun t ↦ .type t.describe)),
      ("marker", .nested (.stated r.marker.snapshot)),
      ("markers", .array (r.markers.map fun m ↦ .nested (.stated m.snapshot))),
      ("label", .string r.label),
      ("weights", .array (r.weights.map .double))]

variable {limit room : Nat}

theorem Marker.detachWithin_eq (m : Marker) :
    (Description.detachWithin limit (room + 1) (.ofInstance (.marker m))).result =
      .ok m.snapshot := rfl

theorem Other.detachWithin_eq (o : Other) :
    (Description.detachWithin limit (room + 1) (.ofInstance (.other o))).result =
      .ok o.snapshot := rfl

private theorem Color.detachBy_eq {f : Description → Eval Stated} (c : Color) :
    (Value.detachBy f (.constant (.live (.color c)))).result = .ok (.constant c.snapshot) := rfl

private theorem Marker.detachBy_eq (m : Marker) :
    (Value.detachBy (Description.detachWithin limit (room + 1))
      (.ofInstance .plain (.marker m))).result = .ok (.nested (.stated m.snapshot)) := rfl

/-- Each element of a list is detached to its image. -/
private theorem detachBy_array_map {β : Type} {f : Description → Eval Stated} {g h : β → Value}
    (each : ∀ x, (Value.detachBy f (g x)).result = .ok (h x)) (xs : List β) :
    (Value.detachBy f (.array (xs.map g))).result = .ok (.array (xs.map h)) := by
  rw [Value.detachBy_array_iff, List.forall₂_map_left_iff, List.forall₂_map_right_iff,
    List.forall₂_same]
  exact fun x _ ↦ each x

theorem Retry.nodup_accessorNames : Retry.liveType.describe.accessorNames.Nodup := by
  decide

theorem Retry.detachWithin_eq (r : Retry) :
    (Description.detachWithin limit (room + 2) (.ofInstance (.retry r))).result =
      .ok r.snapshot := by
  have values : (Description.detachOn (Value.detachBy (Description.detachWithin limit (room + 1)))
      (.ofInstance (.retry r)) (Description.ofInstance (.retry r)).type.accessors).result =
        .ok r.snapshot.values := by
    rw [Description.detachOn_eq_ok_iff]
    -- Only the lists do not evaluate, since their elements are not known.
    refine .cons ⟨rfl, _, rfl, rfl⟩ (.cons ⟨rfl, _, rfl, rfl⟩ (.cons ⟨rfl, _, rfl, ?_⟩
      (.cons ⟨rfl, _, rfl, rfl⟩ (.cons ⟨rfl, _, rfl, ?_⟩ (.cons ⟨rfl, _, rfl, rfl⟩
      (.cons ⟨rfl, _, rfl, ?_⟩ (.cons ⟨rfl, _, rfl, rfl⟩ (.cons ⟨rfl, _, rfl, ?_⟩ .nil))))))))
    · show (Value.detachBy _ (.array ((r.retryOn.map LiveConstant.color).map _))).result = _
      rw [List.map_map]
      exact detachBy_array_map Color.detachBy_eq r.retryOn
    · show (Value.detachBy _ (.array (r.exceptions.map _))).result = _
      exact detachBy_array_map (fun _ ↦ rfl) r.exceptions
    · show (Value.detachBy _ (.array ((r.markers.map Instance.marker).map _))).result = _
      rw [List.map_map]
      exact detachBy_array_map Marker.detachBy_eq r.markers
    · show (Value.detachBy _ (.array (Value.ofOutputs _ (r.weights.map Output.double)))).result = _
      rw [Value.ofOutputs_eq_map, List.map_map]
      exact detachBy_array_map (fun _ ↦ rfl) r.weights
  have entries : Entries.ofList r.snapshot.values = r.snapshot.values :=
    Entries.ofList_of_nodup Retry.nodup_accessorNames
  rw [Description.detachWithin, Eval.result_bind_of_eq_ok values, entries]
  rfl

/-- One level is not enough, since there is always a marker. -/
theorem Retry.detachWithin_one (r : Retry) (s : Stated) :
    (Description.detachWithin limit 1 (.ofInstance (.retry r))).result ≠ .ok s := by
  intro detached
  obtain ⟨es, values, -⟩ := Eval.result_bind_eq_ok.1 detached
  -- The second level is missing at the accessor of the marker.
  let own : LiveMethod :=
    ⟨"marker", "com.example.Retry", 0, .visible, .nested "com.example.Marker",
      .builtIn .retryMarker⟩
  have accessor : (Description.ofInstance (.retry r)).type.accessors[5]? = some (.live own) := rfl
  obtain ⟨e, -, -, v, read, inside⟩ :=
    exists_of_forall₂ (Description.detachOn_eq_ok_iff.1 values) (List.mem_of_getElem? accessor)
  have answer : ((Description.ofInstance (.retry r)).get (.live own)).result =
      .ok (.ofInstance .plain (.marker r.marker)) := rfl
  cases answer.symm.trans read
  cases inside

/-- Values of the declared kinds under the names of the accessors are given by these. -/
theorem Stated.wellKinded_of_forall₂ {s : Stated} (owned : s.type.Owned)
    (distinct : s.type.accessorNames.Nodup)
    (values : List.Forall₂ (fun a e ↦ a.name = e.1 ∧ e.2.conforms a.kind = true)
      s.type.accessors s.values) : s.WellKinded := by
  have names : s.type.accessorNames = Entries.names s.values := by
    rw [TypeDecl.accessorNames, Entries.names, ← List.forall₂_eq_eq_eq, List.forall₂_map_left_iff,
      List.forall₂_map_right_iff]
    exact values.imp fun _ _ ↦ And.left
  intro a ha
  obtain ⟨e, he, name, conforms⟩ := exists_of_forall₂ values ha
  refine ⟨e.2, (getOfKind_eq_ok_iff owned ha).2 ⟨?_, conforms⟩⟩
  rw [name]
  exact Entries.lookup_of_mem (names ▸ distinct) he

private theorem conforms_array_map {β : Type} {g : β → Value} {k : Kind}
    (each : ∀ x, (g x).conforms k = true) (xs : List β) :
    (Value.array (xs.map g)).conforms (.array k) = true := by
  rw [Value.conforms_array, List.all_map, List.all_eq_true]
  exact fun x _ ↦ each x

theorem Marker.wellKinded_snapshot (m : Marker) : m.snapshot.WellKinded :=
  have regular : Marker.liveType.Regular := LiveType.regular_ofMethods (by decide)
  Stated.wellKinded_of_forall₂ (s := m.snapshot) regular.owned_describe
    (List.nodup_singleton _) (.cons ⟨rfl, rfl⟩ .nil)

theorem Other.wellKinded_snapshot (o : Other) : o.snapshot.WellKinded :=
  have regular : Other.liveType.Regular := LiveType.regular_ofMethods (by decide)
  Stated.wellKinded_of_forall₂ (s := o.snapshot) regular.owned_describe
    (List.nodup_singleton _) (.cons ⟨rfl, rfl⟩ .nil)

theorem Retry.wellKinded_snapshot (r : Retry) : r.snapshot.WellKinded := by
  have regular : Retry.liveType.Regular := LiveType.regular_ofMethods (by decide)
  refine Stated.wellKinded_of_forall₂ regular.owned_describe Retry.nodup_accessorNames ?_
  refine .cons ⟨rfl, rfl⟩ (.cons ⟨rfl, rfl⟩ (.cons ⟨rfl, ?_⟩ (.cons ⟨rfl, rfl⟩ (.cons ⟨rfl, ?_⟩
    (.cons ⟨rfl, rfl⟩ (.cons ⟨rfl, ?_⟩ (.cons ⟨rfl, rfl⟩ (.cons ⟨rfl, ?_⟩ .nil))))))))
  · exact conforms_array_map (fun _ ↦ rfl) r.retryOn
  · exact conforms_array_map (fun _ ↦ rfl) r.exceptions
  · exact conforms_array_map (fun _ ↦ rfl) r.markers
  · exact conforms_array_map (fun _ ↦ rfl) r.weights

/-! ### Reading snapshots -/

/-- What an annotation has under a name is read as a target from which it came. -/
theorem Stated.namedAs_of_lookup {s : Stated} {n : String} {v : Value} {t : Target} {x : t.Carrier}
    (named : (Description.stated s).named n = pure v) (value : t.toValue x = v) :
    (Description.stated s).namedAs n t = pure x := by
  have read : t.read v = .ok x := by rw [Target.read, Target.read?_eq_some_iff.2 value]
  rw [Description.namedAs, named, pure_bind, read]
  rfl

theorem Marker.materialize_snapshot (m : Marker) :
    AnnotationClass.materialize (.stated m.snapshot) = (pure m : Eval Marker) := rfl

theorem Other.materialize_snapshot (o : Other) :
    AnnotationClass.materialize (.stated o.snapshot) = (pure o : Eval Other) := rfl

private theorem Color.asColor_snapshot (c : Color) : c.snapshot.asColor = pure c := by
  cases c <;> rfl

private theorem Marker.asMarker_snapshot (m : Marker) :
    (Description.stated m.snapshot).asMarker = pure m := rfl

/-- The elements of a list are computed from their images. -/
private theorem mapM_map_eq_pure {β γ : Type} {f : β → Eval γ} {g : γ → β} {xs : List γ}
    (each : ∀ x ∈ xs, f (g x) = pure x) : (xs.map g).mapM f = pure xs := by
  induction xs with
  | nil => rfl
  | cons x xs ih =>
    obtain ⟨first, rest⟩ := List.forall_mem_cons.1 each
    rw [List.map_cons, List.mapM_cons, first, pure_bind, ih rest, pure_bind]

/-- **From a snapshot all is read again but the classes**, which are looked up by their names. -/
theorem Retry.materialize_snapshot (r : Retry) :
    Retry.materialize (.stated r.snapshot) = (do
      let exceptions ← (r.exceptions.map LiveType.describe).mapM
        fun t ↦ Eval.ofExcept t.knownClass
      let target ← Eval.ofExcept r.target.describe.knownClass
      pure { r with target, exceptions }) := by
  have retryOn : (Description.stated r.snapshot).namedAs "retry_on" (.list .constant) =
      (pure (r.retryOn.map Color.snapshot) : Eval (List Constant)) :=
    -- As a target a list of constants holds the values of these.
    Stated.namedAs_of_lookup rfl (congrArg _ List.map_map)
  have exceptions : (Description.stated r.snapshot).namedAs "exceptions" (.list .type) =
      (pure (r.exceptions.map LiveType.describe) : Eval (List TypeDecl)) :=
    Stated.namedAs_of_lookup rfl (congrArg _ List.map_map)
  have markers : (Description.stated r.snapshot).namedAs "markers" (.list .nested) =
      (pure (r.markers.map fun m ↦ .stated m.snapshot) : Eval (List Description)) :=
    Stated.namedAs_of_lookup rfl (congrArg _ List.map_map)
  have attempts : (Description.stated r.snapshot).namedAs "attempts" .int =
      (pure r.attempts : Eval Int32) := rfl
  have backoff : (Description.stated r.snapshot).namedAs "backoff" .constant =
      (pure r.backoff.snapshot : Eval Constant) := rfl
  have target : (Description.stated r.snapshot).namedAs "target" .type =
      (pure r.target.describe : Eval TypeDecl) := rfl
  have marker : (Description.stated r.snapshot).namedAs "marker" .nested =
      (pure (.stated r.marker.snapshot) : Eval Description) := rfl
  have label : (Description.stated r.snapshot).namedAs "label" .string =
      (pure r.label : Eval String) := rfl
  have weights : (Description.stated r.snapshot).namedAs "weights" (.list .double) =
      (pure r.weights : Eval (List Binary64)) := Stated.namedAs_of_lookup rfl rfl
  rw [Retry.materialize, retryOn, exceptions, markers, attempts, backoff, target, marker, label,
    weights]
  have colors : (r.retryOn.map Color.snapshot).mapM Constant.asColor = pure r.retryOn :=
    mapM_map_eq_pure fun c _ ↦ c.asColor_snapshot
  have nested : (r.markers.map fun m ↦ .stated m.snapshot).mapM Description.asMarker =
      pure r.markers := mapM_map_eq_pure fun m _ ↦ m.asMarker_snapshot
  simp only [pure_bind, colors, nested, Color.asColor_snapshot, Marker.asMarker_snapshot]

/-! ### Classes of the catalogue -/

/-- All classes of a retry annotation are of the catalogue. -/
def Retry.Known (r : Retry) : Prop :=
  r.target ∈ knownClasses ∧ ∀ t ∈ r.exceptions, t ∈ knownClasses

example : Retry.default.Known := by
  simp [Retry.Known, Retry.default, knownClasses]

theorem LiveType.knownClass_describe {t : LiveType} (known : t ∈ knownClasses) :
    t.describe.knownClass = .ok t := by
  rcases List.mem_cons.1 known with rfl | known
  · rfl
  rcases List.mem_cons.1 known with rfl | known
  · rfl
  · rw [List.mem_singleton.1 known]
    rfl

/-- Only classes of the catalogue are found. -/
theorem TypeDecl.mem_of_knownClass {t : TypeDecl} {c : LiveType} (found : t.knownClass = .ok c) :
    c ∈ knownClasses := by
  rw [knownClass] at found
  split at found
  next c' first =>
    cases found
    exact List.mem_of_find?_eq_some first
  next => cases found

private theorem TypeDecl.mem_of_mapM_knownClass {ts : List TypeDecl} {cs : List LiveType}
    (found : (ts.mapM fun t ↦ Eval.ofExcept t.knownClass).result = .ok cs) :
    ∀ c ∈ cs, c ∈ knownClasses := by
  induction ts generalizing cs with
  | nil =>
    cases found
    exact List.forall_mem_nil _
  | cons t ts ih =>
    rw [List.mapM_cons, Eval.result_bind_eq_ok] at found
    obtain ⟨c, first, found⟩ := found
    obtain ⟨rest, others, same⟩ := Eval.result_bind_eq_ok.1 found
    cases same
    exact List.forall_mem_cons.2 ⟨TypeDecl.mem_of_knownClass first, ih others⟩

/-- A snapshot is read back exactly if all its classes are of the catalogue. -/
theorem Retry.materialize_snapshot_eq_pure_iff (r : Retry) :
    Retry.materialize (.stated r.snapshot) = pure r ↔ r.Known := by
  rw [Retry.materialize_snapshot]
  constructor
  · intro read
    obtain ⟨cs, exceptions, read⟩ := Eval.result_bind_eq_ok.1 (congrArg Eval.result read)
    obtain ⟨c, target, same⟩ := Eval.result_bind_eq_ok.1 read
    rw [Eval.result_pure, Except.ok.injEq] at same
    obtain rfl : c = r.target := congrArg Retry.target same
    obtain rfl : cs = r.exceptions := congrArg Retry.exceptions same
    exact ⟨TypeDecl.mem_of_knownClass target, TypeDecl.mem_of_mapM_knownClass exceptions⟩
  · rintro ⟨target, exceptions⟩
    have classes : (r.exceptions.map LiveType.describe).mapM
        (fun t ↦ Eval.ofExcept t.knownClass) = pure r.exceptions :=
      mapM_map_eq_pure fun t ht ↦ congrArg Eval.ofExcept
        (LiveType.knownClass_describe (exceptions t ht))
    rw [classes, pure_bind, LiveType.knownClass_describe target]
    cases r
    rfl

/-! ### Restoring -/

namespace Description

/-- Under the limit zero nothing is detached. -/
theorem detach_zero (d : Description) (s : Stated) : (d.detach 0).result ≠ .ok s :=
  nofun

/-- Detaching keeps the type. -/
theorem type_of_detach {d : Description} {s : Stated} (h : (d.detach limit).result = .ok s) :
    s.type = d.type := by
  cases limit with
  | zero => exact absurd h (detach_zero d s)
  | succ limit =>
    obtain ⟨es, -, same⟩ := Eval.result_bind_eq_ok.1 h
    cases same
    rfl

end Description

theorem Marker.detach_eq_ok_iff {m : Marker} {s : Stated} :
    ((Description.ofInstance (.marker m)).detach limit).result = .ok s ↔
      1 ≤ limit ∧ m.snapshot = s := by
  cases limit with
  | zero => exact iff_of_false (Description.detach_zero _ _) fun h ↦ absurd h.1 (by decide)
  | succ limit => simp [Description.detach, m.detachWithin_eq]

theorem Other.detach_eq_ok_iff {o : Other} {s : Stated} :
    ((Description.ofInstance (.other o)).detach limit).result = .ok s ↔
      1 ≤ limit ∧ o.snapshot = s := by
  cases limit with
  | zero => exact iff_of_false (Description.detach_zero _ _) fun h ↦ absurd h.1 (by decide)
  | succ limit => simp [Description.detach, o.detachWithin_eq]

/-- **A retry annotation is detached to its snapshot** wherever there is room for its markers. -/
theorem Retry.detach_eq_ok_iff {r : Retry} {s : Stated} :
    ((Description.ofInstance (.retry r)).detach limit).result = .ok s ↔
      2 ≤ limit ∧ r.snapshot = s := by
  match limit with
  | 0 => exact iff_of_false (Description.detach_zero _ _) fun h ↦ absurd h.1 (by decide)
  | 1 => exact iff_of_false (r.detachWithin_one s) fun h ↦ absurd h.1 (by decide)
  | limit + 2 => simp [Description.detach, r.detachWithin_eq]

namespace Description

variable {α : Type} [AnnotationClass α] [LawfulAnnotationClass α]

theorem loadsAs_iff_of_detach {x y : α} {s : Stated}
    (h : ((ofInstance (object x)).detach limit).result = .ok s) :
    (stated s).LoadsAs y ↔ AnnotationClass.materialize (stated s) = pure y := by
  refine loadsAs_stated_iff ?_
  calc s.type.name = (object x).type.describe.name := congrArg TypeDecl.name (type_of_detach h)
    _ = (AnnotationClass.type α).name := congrArg LiveType.name (type_object x)

/-- An instance that has a snapshot from some limit on is restored there if it is made again from
the snapshot. -/
theorem exists_restores_iff {n : Nat} {x : α} {snapshot : Stated}
    (detached : ∀ {s}, ((ofInstance (object x)).detach limit).result = .ok s ↔
      n ≤ limit ∧ snapshot = s)
    (wellKinded : snapshot.WellKinded) :
    (∃ s, Restores limit x s) ↔
      n ≤ limit ∧ AnnotationClass.materialize (stated snapshot) = pure x := by
  constructor
  · rintro ⟨s, restores⟩
    obtain ⟨room, rfl⟩ := detached.1 restores.detached
    exact ⟨room, (loadsAs_iff_of_detach restores.detached).1 restores.loaded⟩
  · rintro ⟨room, made⟩
    have snapshotted := detached.2 ⟨room, rfl⟩
    exact ⟨snapshot, snapshotted, wellKinded, (loadsAs_iff_of_detach snapshotted).2 made⟩

/-- **What is restored.** The detached annotations of the catalogue are loaded as the same instances
again wherever there is room to detach them; only a retry annotation with a class from elsewhere is
detached and not loaded. The live annotations are loaded without exception. -/
theorem restored_iff (limit : Nat) :
    (∀ m : Marker, (∃ s, Restores limit m s) ↔ 1 ≤ limit) ∧
    (∀ o : Other, (∃ s, Restores limit o s) ↔ 1 ≤ limit) ∧
    (∀ r : Retry, (∃ s, Restores limit r s) ↔ 2 ≤ limit ∧ r.Known) ∧
    ∀ i : Inspector,
      (∀ m : Marker, (live ⟨.marker m, i⟩).LoadsAs m) ∧
      (∀ o : Other, (live ⟨.other o, i⟩).LoadsAs o) ∧
      ∀ r : Retry, (live ⟨.retry r, i⟩).LoadsAs r := by
  refine ⟨fun m ↦ ?_, fun o ↦ ?_, fun r ↦ ?_,
    fun i ↦ ⟨loadsAs_live i, loadsAs_live i, loadsAs_live i⟩⟩
  · rw [exists_restores_iff Marker.detach_eq_ok_iff m.wellKinded_snapshot]
    exact and_iff_left m.materialize_snapshot
  · rw [exists_restores_iff Other.detach_eq_ok_iff o.wellKinded_snapshot]
    exact and_iff_left o.materialize_snapshot
  · rw [exists_restores_iff Retry.detach_eq_ok_iff r.wellKinded_snapshot]
    exact and_congr_right' r.materialize_snapshot_eq_pure_iff

end Description

end Annotations
