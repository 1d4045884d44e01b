import Annotations.Description.Draft
import Annotations.Description.Lookup
import Annotations.Proofs.Alike
import Mathlib.Data.List.Nodup
import Mathlib.Tactic.Tauto

/-!
# Names of kinds

A value that is rejected is reported with two names, that of the kind it was checked against and
that of its own (`Value.Check.reports_iff`). Whether these can be the same is settled here. A value
is rejected for any of its elements, however deep, while its own kind is named after the first
elements only (`Value.kind?`).

Enumerations and annotations are named as their types please, and such a name may be that of a
number or end in brackets. So it is assumed that **names are apart**: a type does not share its name
with another kind that occurs in the value or in the kind (`Kind.Apart`). Then brackets are taken
off on both sides, until a type is told by its name or two kinds remain that are built in; and the
names are the same if the kinds are (`Value.kindName_eq_name_iff`).

* A value that conforms is named like the kind, unless following its first elements ends in an empty
  array.
* A value that is rejected is named differently, **unless it strays**: one of the arrays that are
  passed on following first elements has a later element of another kind (`Value.Strays`). So an
  `int` before a `long` is rejected as an `int[]`, with nothing said of the `long`
  (`Value.unevenNumbers_rejected_as_itself`).
* An array that is of no one kind has a name all the same, and an empty one is called `array`. A
  type may have that name too; this is the only other way (`Value.Resembles`).
-/

namespace Annotations

/-! ### Kinds and their names -/

theorem Text.getLast?_brackets (s : String) : (s ++ "[]").toList.getLast? = some ']' := by
  simp [String.toList_append]

theorem Text.append_brackets_inj {s t : String} : s ++ "[]" = t ++ "[]" ↔ s = t := by
  rw [← String.toList_inj, String.toList_append, String.toList_append, List.append_left_inj,
    String.toList_inj]

namespace Kind

/-- The kinds that go by the name of a type. -/
def isNominal : Kind → Bool
  | enumeration _ => true
  | nested _ => true
  | _ => false

/-- The kinds that are nothing but their category. -/
def builtIns : List Kind :=
  Category.all.filterMap Category.simpleKind?

/-- Built-in kinds have names of their own. -/
theorem eq_of_mem_builtIns {a b : Kind} (ha : a ∈ builtIns) (hb : b ∈ builtIns)
    (h : a.name = b.name) : a = b := by
  have distinct : (builtIns.map name).Nodup := by decide
  exact List.inj_on_of_nodup_map distinct ha hb h

/-- A built-in kind is named like no array. -/
theorem name_ne_of_mem_builtIns {k : Kind} (hk : k ∈ builtIns) :
    k.name ≠ "array" ∧ k.name.toList.getLast? ≠ some ']' := by
  have all : ∀ k ∈ builtIns, k.name ≠ "array" ∧ k.name.toList.getLast? ≠ some ']' := by decide
  exact all k hk

theorem mem_builtIns_or (k : Kind) :
    k ∈ builtIns ∨ k.isNominal = true ∨ ∃ e, k = array e := by
  cases k with
  | enumeration n => exact .inr (.inl rfl)
  | nested n => exact .inr (.inl rfl)
  | array e => exact .inr (.inr ⟨e, rfl⟩)
  | _ => exact .inl (by decide)

/-- The kinds that occur in a kind. -/
def parts : Kind → List Kind
  | array k => array k :: k.parts
  | k => [k]

theorem mem_parts (k : Kind) : k ∈ k.parts := by
  cases k <;> exact List.mem_cons_self

/-- A type does not share its name with another kind. -/
def Apart (ks : List Kind) : Prop :=
  ∀ a ∈ ks, ∀ b ∈ ks, a.isNominal = true → a.name = b.name → a = b

instance (ks : List Kind) : Decidable (Apart ks) :=
  inferInstanceAs (Decidable (∀ a ∈ ks, ∀ b ∈ ks, _ → _ → _))

theorem Apart.mono {ks ls : List Kind} (h : Apart ls) (sub : ks ⊆ ls) : Apart ks :=
  fun a ha b hb ↦ h a (sub ha) b (sub hb)

end Kind

namespace Value

/-- The kind of a value by its first elements; following these must not end in an empty array. -/
def kind? : Value → Option Kind
  | boolean _ => some .boolean
  | byte _ => some .byte
  | char _ => some .char
  | short _ => some .short
  | int _ => some .int
  | long _ => some .long
  | float _ => some .float
  | double _ => some .double
  | string _ => some .string
  | type _ => some .type
  | constant c => some (.enumeration c.typeName)
  | nested d => some (.nested d.typeName)
  | array [] => none
  | array (v :: _) => v.kind?.map .array

/-- The kind of a value by its first elements, if the value conforms to it. An array may be of no
one kind: it is empty, or its elements are of several kinds. -/
def ownKind? (v : Value) : Option Kind :=
  v.kind?.filter fun k ↦ v.conforms k

mutual

/-- The kinds that occur in a value, those of all elements included. -/
def kinds : Value → List Kind
  | array vs => (array vs).ownKind?.toList ++ kindsAll vs
  | v => v.ownKind?.toList

/-- The kinds that occur in the values of a list. -/
def kindsAll : List Value → List Kind
  | [] => []
  | v :: vs => v.kinds ++ kindsAll vs

end

variable {v : Value} {k : Kind}

/-! ### Kinds by first elements -/

theorem kind?_array_cons_iff {vs : List Value} :
    (array (v :: vs)).kind? = some k ↔ ∃ e, v.kind? = some e ∧ .array e = k :=
  Option.map_eq_some_iff

/-- A value that is no array is of a kind, which is no array either. -/
theorem exists_kind?_of_ne_array (hv : ∀ vs, v ≠ array vs) :
    ∃ k, v.kind? = some k ∧ (k ∈ Kind.builtIns ∨ k.isNominal = true) := by
  cases v with
  | array vs => exact absurd rfl (hv vs)
  | constant c => exact ⟨_, rfl, .inr rfl⟩
  | nested d => exact ⟨_, rfl, .inr rfl⟩
  | _ => exact ⟨_, rfl, .inl (by decide)⟩

/-- It conforms to that kind and to no other. -/
theorem conforms_iff_of_ne_array (hv : ∀ vs, v ≠ array vs) :
    v.conforms k = true ↔ v.kind? = some k := by
  constructor
  · intro h
    unfold conforms at h
    split at h
    case h_11 => rw [kind?, beq_iff_eq.1 h]
    case h_12 => rw [kind?, beq_iff_eq.1 h]
    case h_13 => exact absurd rfl (hv _)
    case h_14 => cases h
    all_goals rfl
  · intro h
    cases v with
    | array vs => exact absurd rfl (hv vs)
    | constant c =>
      cases h
      exact beq_self_eq_true _
    | nested d =>
      cases h
      exact beq_self_eq_true _
    | _ =>
      cases h
      rfl

/-- An array conforms if all its elements do. -/
theorem conforms_array_iff {vs : List Value} :
    (array vs).conforms k = true ↔ ∃ e, k = .array e ∧ ∀ v ∈ vs, v.conforms e = true := by
  cases k with
  | array e => simp
  | _ => exact iff_of_false nofun nofun

/-- **A value is named like its kind.** -/
theorem kindName_of_kind? (h : v.kind? = some k) : v.kindName = k.name := by
  induction v using array_induction generalizing k with
  | other v hv =>
    cases v with
    | array vs => exact absurd rfl (hv vs)
    | _ =>
      cases h
      rfl
  | array vs ih =>
    cases vs with
    | nil => cases h
    | cons v vs =>
      obtain ⟨e, first, rfl⟩ := kind?_array_cons_iff.1 h
      rw [kindName_array_cons, ih v List.mem_cons_self first, Kind.name_array]

/-- **A value that conforms is of the kind**, or of none. -/
theorem kind?_of_conforms (h : v.conforms k = true) (found : v.kind? ≠ none) :
    v.kind? = some k := by
  induction v using array_induction generalizing k with
  | other v hv => exact (conforms_iff_of_ne_array hv).1 h
  | array vs ih =>
    obtain ⟨e, rfl, elements⟩ := conforms_array_iff.1 h
    cases vs with
    | nil => exact absurd rfl found
    | cons v vs =>
      have first : v.kind? ≠ none := fun none ↦ found (by rw [kind?, none, Option.map_none])
      have kind := ih v List.mem_cons_self (elements v List.mem_cons_self) first
      exact kind?_array_cons_iff.2 ⟨e, kind, rfl⟩

/-! ### Names apart -/

theorem mem_kinds_of_ownKind? (h : v.ownKind? = some k) : k ∈ v.kinds := by
  cases v <;> simp [kinds, h]

/-- The names of what is below two arrays are apart if those of the arrays are. -/
theorem apart_of_array {vs : List Value}
    (apart : Kind.Apart ((array (v :: vs)).kinds ++ (Kind.array k).parts)) :
    Kind.Apart (v.kinds ++ k.parts) := by
  refine apart.mono fun a ha ↦ ?_
  rw [kinds, kindsAll, Kind.parts]
  simp only [List.mem_append, List.mem_cons] at ha ⊢
  tauto

/-- A type is told by its name. -/
theorem eq_of_ownKind? {a : Kind} (apart : Kind.Apart (v.kinds ++ k.parts))
    (own : v.ownKind? = some a) (nominal : a.isNominal = true ∨ k.isNominal = true)
    (same : a.name = k.name) : a = k := by
  have ha := List.mem_append_left k.parts (mem_kinds_of_ownKind? own)
  have hk := List.mem_append_right v.kinds k.mem_parts
  rcases nominal with nominal | nominal
  · exact apart a ha k hk nominal same
  · exact (apart k hk a ha nominal same.symm).symm

/-- An array that is of no one kind has the name of a type: the value itself and the kind are these,
or they are found inside of arrays, following first elements. -/
inductive Resembles : Kind → Value → Prop
  | here {k : Kind} {v : Value} (none : v.ownKind? = none) (nominal : k.isNominal = true)
    (name : v.kindName = k.name) : Resembles k v
  | first {k : Kind} {v : Value} {vs : List Value} (h : Resembles k v) :
    Resembles (.array k) (.array (v :: vs))

theorem Resembles.kindName_eq (h : v.Resembles k) : v.kindName = k.name := by
  induction h with
  | here _ _ name => exact name
  | first _ ih => rw [kindName_array_cons, ih, Kind.name_array]

example : Resembles (.enumeration "array") (.array []) := .here rfl rfl rfl

/-- What is no array is told by its name. -/
theorem kind?_eq_of_ne_array (hv : ∀ vs, v ≠ array vs) (apart : Kind.Apart (v.kinds ++ k.parts))
    (h : v.kindName = k.name) : v.kind? = some k := by
  obtain ⟨a, kind, sort⟩ := exists_kind?_of_ne_array hv
  have own : v.ownKind? = some a :=
    Option.filter_eq_some_iff.2 ⟨kind, (conforms_iff_of_ne_array hv).2 kind⟩
  have same : a.name = k.name := (kindName_of_kind? kind).symm.trans h
  rw [kind]
  rcases sort with builtIn | nominal
  · rcases k.mem_builtIns_or with hk | nominal | ⟨e, rfl⟩
    · rw [Kind.eq_of_mem_builtIns builtIn hk same]
    · rw [eq_of_ownKind? apart own (.inr nominal) same]
    · exact absurd (same ▸ Text.getLast?_brackets _) (Kind.name_ne_of_mem_builtIns builtIn).2
  · rw [eq_of_ownKind? apart own (.inl nominal) same]

/-- **If names are apart, they are the same exactly if the kinds are**, or if a type is named like an
array that is of no one kind. -/
theorem kindName_eq_name_iff (apart : Kind.Apart (v.kinds ++ k.parts)) :
    v.kindName = k.name ↔ v.kind? = some k ∨ v.Resembles k := by
  constructor
  · intro h
    induction v using array_induction generalizing k with
    | other v hv => exact .inl (kind?_eq_of_ne_array hv apart h)
    | array vs ih =>
      rcases k.mem_builtIns_or with hk | nominal | ⟨e, rfl⟩
      · cases vs with
        | nil => exact absurd h.symm (Kind.name_ne_of_mem_builtIns hk).1
        | cons v vs =>
          exact absurd (h ▸ Text.getLast?_brackets _) (Kind.name_ne_of_mem_builtIns hk).2
      · -- Only where the array is of a kind of its own does this kind occur in the value.
        cases own : (array vs).ownKind? with
        | none => exact .inr (.here own nominal h)
        | some a =>
          have kind := (Option.filter_eq_some_iff.1 own).1
          have same : a.name = k.name := (kindName_of_kind? kind).symm.trans h
          rw [kind, eq_of_ownKind? apart own (.inr nominal) same]
          exact .inl rfl
      · cases vs with
        | nil =>
          have last := Text.getLast?_brackets e.name
          rw [← Kind.name_array, ← h] at last
          cases last
        | cons v vs =>
          -- Both sides are arrays: the brackets are taken off.
          have below : v.kindName = e.name := Text.append_brackets_inj.1 h
          rcases ih v List.mem_cons_self (apart_of_array apart) below with first | first
          · exact .inl (kind?_array_cons_iff.2 ⟨e, first, rfl⟩)
          · exact .inr (.first first)
  · rintro (kind | resembles)
    · exact kindName_of_kind? kind
    · exact resembles.kindName_eq

/-! ### Values that stray -/

/-- The value is of the kind by its first elements, but in one of the arrays that are passed on the
way there is a later element that does not conform to the kind of the first one. -/
inductive Strays : Kind → Value → Prop
  | later {k : Kind} {v w : Value} {vs : List Value} (kind : v.kind? = some k) (hw : w ∈ vs)
    (other : w.conforms k = false) : Strays (.array k) (.array (v :: vs))
  | first {k : Kind} {v : Value} {vs : List Value} (h : Strays k v) :
    Strays (.array k) (.array (v :: vs))

/-- **A value strays from its own kind** exactly if it does not conform to it. -/
theorem strays_iff : v.Strays k ↔ v.kind? = some k ∧ v.conforms k = false := by
  constructor
  · intro h
    induction h with
    | @later k v w vs kind hw other =>
      refine ⟨kind?_array_cons_iff.2 ⟨k, kind, rfl⟩, ?_⟩
      rw [conforms_array, List.all_eq_false]
      exact ⟨w, List.mem_cons_of_mem v hw, Bool.not_eq_true _ ▸ other⟩
    | @first k v vs _ ih =>
      refine ⟨kind?_array_cons_iff.2 ⟨k, ih.1, rfl⟩, ?_⟩
      rw [conforms_array, List.all_eq_false]
      exact ⟨v, List.mem_cons_self, Bool.not_eq_true _ ▸ ih.2⟩
  · rintro ⟨kind, other⟩
    induction v using array_induction generalizing k with
    | other v hv => cases ((conforms_iff_of_ne_array hv).2 kind).symm.trans other
    | array vs ih =>
      cases vs with
      | nil => cases kind
      | cons v vs =>
        obtain ⟨e, first, rfl⟩ := kind?_array_cons_iff.1 kind
        rw [conforms_array, List.all_eq_false] at other
        obtain ⟨w, hw, other⟩ := other
        rw [Bool.not_eq_true] at other
        -- If it is the first element, the reason lies deeper.
        rcases List.mem_cons.1 hw with rfl | hw
        · exact .first (ih w List.mem_cons_self first other)
        · exact .later first hw other

end Value

/-! ### Rejections -/

/-- A declaration fails for the first default value that is rejected. -/
theorem TypeDecl.declare_eq_error_of_check {name : String} {before after : List AccessorDraft}
    {a : AccessorDraft} {err : ReadError} (passed : ∀ b ∈ before, b.check = .ok ())
    (failed : a.check = .error err) :
    TypeDecl.declare name (before ++ a :: after) = .error err := by
  have checks : (before ++ a :: after).forM AccessorDraft.check = .error err := by
    induction before with
    | nil =>
      change (a.check >>= fun _ ↦ after.forM AccessorDraft.check) = .error err
      rw [failed]
      rfl
    | cons b before ih =>
      obtain ⟨first, rest⟩ := List.forall_mem_cons.1 passed
      change (b.check >>= fun _ ↦ (before ++ a :: after).forM AccessorDraft.check) = .error err
      rw [first]
      exact ih rest
  rw [TypeDecl.declare, checks]
  rfl

namespace Value

variable {v : Value} {k : Kind}

/-- Where a value is checked against a kind, and what it means that an error is reported there: a
draft is given the value, it is read of an annotation, or it is the default value of an accessor in
the declaration of a type. -/
inductive Check (v : Value) : Kind → (reports : ReadError → Prop) → Prop
  | given {d : Draft} {n : String} {a : Accessor} (found : d.type.accessor? n = some a) :
    Check v a.kind fun err ↦ d.define n v = .error err
  | read {d : Description} {h : Handle} (k : Kind) (answer : (d.get h).result = .ok v) :
    Check v k fun err ↦ (d.getOfKind h k).result = .error err
  | default {name : String} {before after : List AccessorDraft} {a : AccessorDraft}
    (passed : ∀ b ∈ before, b.check = .ok ()) (default : a.default? = some v) :
    Check v a.kind fun err ↦ TypeDecl.declare name (before ++ a :: after) = .error err

/-- **A value that does not conform is rejected wherever it is checked**, with the names of the
kind and of its own kind. -/
theorem Check.reports_iff {reports : ReadError → Prop} (h : v.Check k reports)
    (other : v.conforms k = false) {err : ReadError} :
    reports err ↔ err = .typeMismatch k.name v.kindName := by
  have rejected : v.checked k = .error (.typeMismatch k.name v.kindName) := by
    rw [checked, if_neg (by simp [other])]
  cases h with
  | given found =>
    simp only [Draft.define, found, rejected, Except.map, Except.error.injEq]
    exact eq_comm
  | read k answer =>
    simp only [Description.getOfKind, Eval.result_bind_of_eq_ok answer, Eval.result_ofExcept,
      rejected, Except.error.injEq]
    exact eq_comm
  | @default _ _ _ a passed default =>
    have failed : a.check = .error (.typeMismatch a.kind.name v.kindName) := by
      simp only [AccessorDraft.check, default, rejected, Except.map]
    simp only [TypeDecl.declare_eq_error_of_check passed failed, Except.error.injEq]
    exact eq_comm

/-- **The names in a rejection.** If names are apart,

* a value that does not conform is rejected wherever it is checked, with the names of the two
  kinds, and these are the same exactly if the value strays, or if a type is named like an array
  that is of no one kind;
* a value that conforms is named like the kind, if following its first elements does not end in an
  empty array. -/
theorem rejection_names (apart : Kind.Apart (v.kinds ++ k.parts)) :
    (v.conforms k = false →
      (∀ reports, v.Check k reports → ∀ err,
        reports err ↔ err = .typeMismatch k.name v.kindName) ∧
      (v.kindName = k.name ↔ v.Strays k ∨ v.Resembles k)) ∧
    (v.conforms k = true → v.kind? ≠ none → v.kindName = k.name) := by
  refine ⟨fun other ↦ ⟨fun reports h err ↦ h.reports_iff other, ?_⟩,
    fun conforms found ↦ kindName_of_kind? (kind?_of_conforms conforms found)⟩
  rw [kindName_eq_name_iff apart, strays_iff, and_iff_left other]

/-- One list with a color, and an empty one. -/
def palettes : Value :=
  .array [.array [.constant (.live (.color .red))], .array []]

/-- Palettes are named like lists of lists of colors. As lists of lists of numbers they are
rejected under another name, so they do not stray. -/
theorem rejection_names_palettes :
    palettes.conforms (.array (.array (.enumeration "com.example.Color"))) = true ∧
    palettes.kindName = "com.example.Color[][]" ∧
    palettes.conforms (.array (.array .int)) = false ∧
    ¬palettes.Strays (.array (.array .int)) ∧ ¬palettes.Resembles (.array (.array .int)) := by
  have own : Kind.Apart (palettes.kinds ++
      (Kind.array (.array (.enumeration "com.example.Color"))).parts) := by decide
  have other : Kind.Apart (palettes.kinds ++ (Kind.array (.array .int)).parts) := by decide
  obtain ⟨-, named⟩ := rejection_names own
  obtain ⟨rejected, -⟩ := rejection_names other
  exact ⟨rfl, named rfl nofun, rfl, not_or.1 ((rejected rfl).2.not.1 (by decide))⟩

/-- An `int` and a `long`. -/
def unevenNumbers : Value :=
  .array [.int 1, .long 2]

/-- **A mixed list is rejected as what it should be**: the list expected and the list found go by
the same name. No types occur whose names could be shared. -/
theorem unevenNumbers_rejected_as_itself :
    Kind.Apart (unevenNumbers.kinds ++ (Kind.array .int).parts) ∧
    unevenNumbers.conforms (.array .int) = false ∧ unevenNumbers.kindName = (Kind.array .int).name ∧
    (Draft.empty (.ofDrafts "com.example.Box" [⟨"items", .array .int, none⟩])).define "items"
      unevenNumbers = .error (.typeMismatch "int[]" "int[]") :=
  ⟨by decide, rfl, rfl, rfl⟩

end Value

end Annotations
