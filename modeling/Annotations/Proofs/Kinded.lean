import Annotations.Proofs.Reader

/-!
# Values of the declared kind

A stated annotation is meant to give, under each of its accessors, a value of the accessor's kind.
Given values are checked when they are given, and the default values of a type when the type is
declared; what is left between the two checks decides.

* For one accessor, **the exact condition** is `TypeDecl.Settles` (`Stated.getOfKind_iff`): it is
  the only one of its name and was given a value, or the default value that is chosen under its name
  conforms to its kind.
* So an annotation is well kinded if the names of its accessors are distinct and the default values
  of its type conform (`TypeDecl.Kinded`). Those of types that are declared or described do.
* Nothing makes the default values of a type conform that was **read from a text**, and nothing
  makes names distinct; both are needed. A quota that is read from a text reports a string where it
  declares a number (`Stated.quota_of_read`), and so does a tally that is built from a declared type
  with two accessors of one name (`Stated.tally_of_declare`).
-/

namespace Annotations

namespace TypeDecl

/-- How a type comes about: it is declared, it describes a live type with methods of its own, or it
occurs in something that was read from a text. -/
inductive Obtained : TypeDecl → Prop
  | declared {name : String} {drafts : List AccessorDraft} {t : TypeDecl}
    (h : declare name drafts = .ok t) : Obtained t
  | described {t : LiveType} (own : ∀ m ∈ t.methods, m.owner = t.name) : Obtained t.describe
  | read {p : Part} {t : TypeDecl} (h : p.IsRead) (contains : p.Contains (.type t)) : Obtained t

/-- The default values conform to the kinds of their accessors. -/
def Conforming (t : TypeDecl) : Prop :=
  ∀ a ∈ t.accessors, ∀ v, a.default? = some v → v.conforms a.kind = true

/-- Accessors have names of their own and default values that conform. -/
structure Kinded (t : TypeDecl) : Prop where
  distinct : t.accessorNames.Nodup
  conforming : t.Conforming

/-- Given the values, a draft of the type has a value of its kind for the accessor: it is the only
one of its name and is given one, or the default value that is chosen under its name conforms. -/
def Settles (t : TypeDecl) (values : List (String × Value)) (a : Accessor) : Prop :=
  (t.accessorNames.count a.name = 1 ∧ a.name ∈ Entries.names values) ∨
    ∃ v, Accessor.lastDefault t.accessors a.name = some v ∧ v.conforms a.kind = true

/-! ### Where types come from -/

theorem declare_eq_ok_iff {name : String} {drafts : List AccessorDraft} {t : TypeDecl} :
    declare name drafts = .ok t ↔
      (∀ a ∈ drafts, a.check = .ok ()) ∧ t = ofDrafts name drafts := by
  have checks : ∀ drafts : List AccessorDraft,
      drafts.forM AccessorDraft.check = .ok () ↔ ∀ a ∈ drafts, a.check = .ok () := by
    intro drafts
    induction drafts with
    | nil => simp [pure, Except.pure]
    | cons a as ih =>
      change (a.check >>= fun _ ↦ as.forM AccessorDraft.check) = .ok () ↔ _
      rw [List.forall_mem_cons, ← ih]
      cases a.check <;> simp [bind, Except.bind]
  rw [declare, ← checks]
  cases drafts.forM AccessorDraft.check <;> simp [Except.map, eq_comm]

/-- A declared type has default values that conform. -/
theorem conforming_of_declare {name : String} {drafts : List AccessorDraft} {t : TypeDecl}
    (h : declare name drafts = .ok t) : t.Conforming := by
  obtain ⟨checks, rfl⟩ := declare_eq_ok_iff.1 h
  intro a ha v hv
  obtain ⟨d, hd, rfl⟩ := List.mem_map.1 ha
  have default : d.default? = some v := hv
  have check := checks d hd
  rw [AccessorDraft.check, default] at check
  have checked : (v.checked d.kind).map (fun _ ↦ ()) = .ok () := check
  cases hv' : v.checked d.kind with
  | error e =>
    rw [hv'] at checked
    cases checked
  | ok w => exact (Value.checked_eq_ok_iff.1 hv').1

/-- A described type has no default values. -/
theorem conforming_describe (t : LiveType) : t.describe.Conforming := by
  intro a ha v hv
  obtain ⟨m, -, rfl⟩ := List.mem_map.1 ha
  cases hv

theorem Obtained.owned {t : TypeDecl} (h : t.Obtained) : t.Owned := by
  cases h with
  | declared h =>
    obtain ⟨-, rfl⟩ := declare_eq_ok_iff.1 h
    exact owned_ofDrafts _ _
  | described own =>
    intro a ha
    obtain ⟨m, hm, rfl⟩ := List.mem_map.1 ha
    exact own m (LiveType.mem_accessors.1 hm).1
  | read h contains => exact h.built (.type t) contains

/-- Under a name that is declared once, the accessor that is found is the only one. -/
theorem accessor?_of_count {t : TypeDecl} {a : Accessor} (ha : a ∈ t.accessors)
    (once : t.accessorNames.count a.name = 1) : t.accessor? a.name = some a := by
  cases hfound : t.accessor? a.name with
  | none =>
    have := List.find?_eq_none.1 hfound a ha
    simp at this
  | some b =>
    obtain ⟨hname, as, bs, split, none⟩ := List.find?_eq_some_iff_append.1 hfound
    have hname : b.name = a.name := by simpa using hname
    rw [accessorNames, split, List.map_append, List.map_cons, List.count_append, hname,
      List.count_cons_self] at once
    rw [split] at ha
    rcases List.mem_append.1 ha with ha | ha
    · have := none a ha
      simp at this
    · rcases List.mem_cons.1 ha with rfl | ha
      · rfl
      · have later := List.count_pos_iff.2 (List.mem_map_of_mem (f := Accessor.name) ha)
        omega

end TypeDecl

namespace Stated

variable {t : TypeDecl} {values : List (String × Value)} {s : Stated} {a : Accessor}

/-- The value under an accessor, if it is of the accessor's kind. -/
theorem getOfKind_eq_ok_iff (owned : s.type.Owned) (ha : a ∈ s.type.accessors) {v : Value} :
    ((Description.stated s).getOfKind a.handle a.kind).result = .ok v ↔
      s.values.lookup a.name = some v ∧ v.conforms a.kind = true := by
  have declared := TypeDecl.declares_of_mem owned ha
  rw [Description.getOfKind, Eval.result_bind_eq_ok]
  simp only [Description.get_stated, Eval.result_ofExcept, get_eq_ok_iff, declared, true_and,
    Value.checked_eq_ok_iff]
  constructor
  · rintro ⟨w, found, conforms, rfl⟩
    exact ⟨found, conforms⟩
  · rintro ⟨found, conforms⟩
    exact ⟨v, found, conforms, rfl⟩

/-- **When an accessor gives a value of its kind.** -/
theorem getOfKind_iff (owned : t.Owned) (h : Stated.of t values = .ok s) (ha : a ∈ t.accessors) :
    (∃ v, ((Description.stated s).getOfKind a.handle a.kind).result = .ok v) ↔
      t.Settles values a := by
  have type := type_of h
  have lookup := lookup_of h a.name
  have takes := (of_eq_ok_iff.1 h).1
  simp only [getOfKind_eq_ok_iff (type ▸ owned) (type ▸ ha)]
  by_cases given : t.accessorNames.count a.name = 1 ∧ a.name ∈ Entries.names values
  · -- The value that was given has been checked against the kind of this accessor.
    refine iff_of_true ?_ (.inl given)
    obtain ⟨once, mem⟩ := given
    have none : values.reverse.lookup a.name ≠ none := by
      rw [Ne, Entries.lookup_eq_none_iff, Entries.names, List.map_reverse, List.mem_reverse]
      exact not_not_intro mem
    obtain ⟨v, hv⟩ := Option.ne_none_iff_exists'.1 none
    obtain ⟨b, found, conforms⟩ := takes _ (List.mem_reverse.1 (Entries.mem_of_lookup hv))
    cases found.symm.trans (TypeDecl.accessor?_of_count ha once)
    rw [if_pos once, hv, Option.some_or] at lookup
    exact ⟨v, lookup, conforms⟩
  · -- Otherwise what is chosen under the name is a default value.
    have default : s.values.lookup a.name = Accessor.lastDefault t.accessors a.name := by
      rw [lookup]
      split
      · rename_i once
        have mem : a.name ∉ Entries.names values := fun mem ↦ given ⟨once, mem⟩
        have none : values.reverse.lookup a.name = none := by
          rw [Entries.lookup_eq_none_iff, Entries.names, List.map_reverse, List.mem_reverse]
          exact mem
        rw [none, Option.none_or]
      · rfl
    rw [default, TypeDecl.Settles, or_iff_right given]

/-- What is proper gives values of the declared kinds. -/
theorem Proper.getOfKind (h : s.Proper) (owned : s.type.Owned) (filled : s.Filled)
    (ha : a ∈ s.type.accessors) :
    ∃ v, ((Description.stated s).getOfKind a.handle a.kind).result = .ok v := by
  obtain ⟨v, hv⟩ := filled a.name (List.mem_map_of_mem ha)
  obtain ⟨b, found, conforms⟩ := h.takes _ (Entries.mem_of_lookup hv)
  cases found.symm.trans (TypeDecl.accessor?_of_mem h.distinct ha)
  exact ⟨v, (getOfKind_eq_ok_iff owned ha).2 ⟨hv, conforms⟩⟩

/-- How a stated annotation comes about: it is built by a draft of a type that was obtained, or it
occurs in something that was read from a text. -/
inductive Obtained : Stated → Prop
  | built {t : TypeDecl} {values : List (String × Value)} {s : Stated} (type : t.Obtained)
    (h : Stated.of t values = .ok s) : Obtained s
  | read {p : Part} {s : Stated} (h : p.IsRead) (contains : p.Contains (.stated s)) : Obtained s

/-- What occurs in a text has been built too, from a type that occurs in it. -/
theorem Obtained.of (h : s.Obtained) :
    s.type.Obtained ∧ ∃ values, Stated.of s.type values = .ok s := by
  cases h with
  | @built t values _ type h =>
    have same : s.type = t := type_of h
    exact ⟨same ▸ type, values, same ▸ h⟩
  | read h contains => exact ⟨.read h (contains.tail List.mem_cons_self), h.built _ contains⟩

/-- **What it takes to be well kinded**, for any stated annotation that was obtained.

* It was built by a draft of its type; and an accessor gives a value of its kind exactly when the
  type and the values that the draft was given settle it.
* If the accessors of the type have distinct names and default values that conform, then every
  accessor gives a value of its kind.
* The default values of declared and of described types conform. -/
theorem wellKinded_iff (obtained : s.Obtained) :
    (∃ values, Stated.of s.type values = .ok s) ∧
    (∀ values, Stated.of s.type values = .ok s → ∀ a ∈ s.type.accessors,
      ((∃ v, ((Description.stated s).getOfKind a.handle a.kind).result = .ok v) ↔
        s.type.Settles values a)) ∧
    (s.type.Kinded → ∀ a ∈ s.type.accessors,
      ∃ v, ((Description.stated s).getOfKind a.handle a.kind).result = .ok v) ∧
    (∀ name drafts, TypeDecl.declare name drafts = .ok s.type → s.type.Conforming) ∧
    (∀ t : LiveType, s.type = t.describe → s.type.Conforming) := by
  obtain ⟨type, values, built⟩ := obtained.of
  refine ⟨⟨values, built⟩, fun values h a ha ↦ getOfKind_iff type.owned h ha, fun kinded a ha ↦ ?_,
    fun name drafts ↦ TypeDecl.conforming_of_declare,
    fun t described ↦ described ▸ TypeDecl.conforming_describe t⟩
  exact (proper_of built kinded.distinct kinded.conforming).getOfKind type.owned
    (filled_of_of built) ha

/-- A note has a level of its kind, as one is given. -/
theorem wellKinded_iff_note :
    note.Obtained ∧ note.type.Kinded ∧
    ∃ v, ((Description.stated note).getOfKind (.stated "com.example.Note" "level" .int)
      .int).result = .ok v := by
  have declared : TypeDecl.declare "com.example.Note" noteDrafts = .ok note.type := rfl
  have obtained : note.Obtained := .built (.declared declared) proper_note.of_values
  obtain ⟨-, -, wellKinded, conforming, -⟩ := wellKinded_iff obtained
  have kinded : note.type.Kinded := ⟨by decide, conforming _ _ declared⟩
  have level : .stated "com.example.Note" "level" .int (some (.int 3)) ∈ note.type.accessors :=
    List.mem_cons_of_mem _ List.mem_cons_self
  exact ⟨obtained, kinded, wellKinded kinded _ level⟩

/-! ### A quota and a tally -/

/-- A type with a default value that does not conform; no declaration makes it. -/
def quotaType : TypeDecl :=
  .ofDrafts "com.example.Quota" [⟨"count", .int, some (.string "many")⟩]

/-- A quota with the default value. -/
def quota : Stated := ⟨quotaType, [("count", .string "many")]⟩

/-- The written form of a quota without values. -/
def quotaDoc : Doc :=
  .object [("type", quotaType.doc), ("values", .object [])]

/-- The quota is read from a text, and has a string for a number. -/
theorem quota_of_read :
    Stated.read quotaDoc.write = .ok quota ∧
    Accessor.stated "com.example.Quota" "count" .int (some (.string "many")) ∈
      quota.type.accessors ∧
    ((Description.stated quota).getOfKind (.stated "com.example.Quota" "count" .int) .int).result =
      .error (.typeMismatch "int" "String") := by
  refine ⟨?_, List.mem_singleton.2 rfl, rfl⟩
  rw [Stated.read, Stated.readIn, Parsed.json_write]
  rfl

/-- A type with two accessors of one name. -/
def tallyType : TypeDecl :=
  .ofDrafts "com.example.Tally" [⟨"count", .int, none⟩, ⟨"count", .string, some (.string "many")⟩]

/-- A tally with the default value of the second accessor. -/
def tally : Stated := ⟨tallyType, [("count", .string "many")]⟩

/-- The tally is built from the number that it was given, and has a string in its place. -/
theorem tally_of_declare :
    TypeDecl.declare "com.example.Tally"
      [⟨"count", .int, none⟩, ⟨"count", .string, some (.string "many")⟩] = .ok tallyType ∧
    Stated.of tallyType [("count", .int 1)] = .ok tally ∧
    ((Description.stated tally).getOfKind (.stated "com.example.Tally" "count" .int) .int).result =
      .error (.typeMismatch "int" "String") :=
  ⟨rfl, rfl, rfl⟩

end Stated

end Annotations
