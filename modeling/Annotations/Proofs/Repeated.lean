import Annotations.Proofs.Faults
import Annotations.Proofs.Kinded

/-!
# Names that are declared more than once

A type may declare several accessors of one name: neither its declaration nor the reading of a text
rules that out. A draft, on the other hand, has one value under each name. When it is built, the
first accessor of a name takes what was given, and the later ones of that name are left with their
default values.

What becomes of a value that was given depends on how often its name is declared
(`Draft.given_kept_or_lost`).

* **Once**: it is kept. No value is missing under its name, and it is what the annotation answers.
* **More often**: it is lost. If the first accessor that lacks a value is one of that name, a value
  is said to be missing, although one was given; and if an annotation is built, it answers the
  default value of the last accessor of that name.

Both happen to a number that is given to a draft with two accessors named `count`
(`Draft.count_lost`).
-/

namespace Annotations

/-- An annotation answers what it has under a declared name. -/
theorem Stated.named_of_lookup {s : Stated} (owned : s.type.Owned) {n : String}
    (declared : n ∈ s.type.accessorNames) {v : Value} (found : s.values.lookup n = some v) :
    ((Description.stated s).named n).result = .ok v := by
  obtain ⟨a, first⟩ := Option.isSome_iff_exists.1 (TypeDecl.accessor?_isSome.2 declared)
  obtain ⟨mem, rfl⟩ := TypeDecl.of_accessor?_eq_some first
  have answer : s.get a.handle = .ok v :=
    Stated.get_eq_ok_iff.2 ⟨TypeDecl.declares_of_mem owned mem, found⟩
  have named : (Description.stated s).named a.name = Eval.ofExcept (s.get a.handle) := by
    have type : (Description.stated s).type.accessor? a.name = some a := first
    rw [Description.named, type]
    rfl
  rw [named, answer]
  rfl

/-- What is taken has a declared name. -/
theorem TypeDecl.Takes.declared {t : TypeDecl} {e : String × Value} (h : t.Takes e) :
    e.1 ∈ t.accessorNames := by
  obtain ⟨a, found, -⟩ := h
  exact accessor?_isSome.1 (Option.isSome_of_eq_some found)

namespace Draft

variable {t : TypeDecl} {values : List (String × Value)} {d : Draft} {n : String}

/-- Only under a name that is declared more than once can a given value have been taken. -/
theorem count_ne_one_of_lacks {as : List Accessor} {names : List String} {a : Accessor}
    (first : IsFirst (Lacks names) as a) (given : a.name ∈ names) :
    (as.map Accessor.name).count a.name ≠ 1 := by
  obtain ⟨before, after, rfl, ⟨-, taken⟩, -⟩ := first
  have earlier := List.count_pos_iff.2 (taken given)
  rw [List.map_append, List.map_cons, List.count_append, List.count_cons_self]
  omega

/-- A value is said to be missing for the first accessor that lacks one. -/
theorem build_eq_missingValue_iff (sort : t.isAnnotationType = true)
    (given : (empty t).defineAll values = .ok d) :
    d.build = .error (.missingValue t.name n) ↔
      ∃ a, IsFirst (Lacks (Entries.names values)) t.accessors a ∧ a.name = n := by
  have takes : ∀ e ∈ values, t.Takes e := (defineAll_eq_ok_iff.1 given).1
  rw [← Stated.of_eq_build given, Stated.of_eq_error_iff]
  constructor
  · rintro (⟨e, refused, -⟩ | ⟨-, ⟨-, err⟩ | ⟨-, a, lacking, err⟩⟩)
    · exact absurd refused (not_isFirst_of_forall takes)
    · cases err
    · exact ⟨a, lacking, (ReadError.missingValue.inj err).2.symm⟩
  · rintro ⟨a, lacking, rfl⟩
    exact .inr ⟨takes, .inr ⟨sort, a, lacking, rfl⟩⟩

/-- **What becomes of a given value**: it is kept if its name is declared once; otherwise a value is
missing under its name, or a default value stands in its place. -/
theorem given_kept_or_lost (obtained : t.Obtained) (sort : t.isAnnotationType = true)
    (given : (empty t).defineAll values = .ok d) (hn : n ∈ Entries.names values) :
    ∃ v, values.reverse.lookup n = some v ∧
      (t.accessorNames.count n = 1 →
        d.build ≠ .error (.missingValue t.name n) ∧
        ∀ s, d.build = .ok s → ((Description.stated s).named n).result = .ok v) ∧
      (t.accessorNames.count n ≠ 1 →
        (d.build = .error (.missingValue t.name n) ↔
          ∃ a, IsFirst (Lacks (Entries.names values)) t.accessors a ∧ a.name = n) ∧
        ∀ s, d.build = .ok s → ∃ w, Accessor.lastDefault t.accessors n = some w ∧
          ((Description.stated s).named n).result = .ok w) := by
  have declared : n ∈ t.accessorNames := by
    obtain ⟨e, he, rfl⟩ := List.mem_map.1 hn
    exact ((defineAll_eq_ok_iff.1 given).1 e he).declared
  obtain ⟨v, hv⟩ : ∃ v, values.reverse.lookup n = some v := by
    refine Option.ne_none_iff_exists'.1 fun none ↦ ?_
    rw [Entries.lookup_eq_none_iff, Entries.names, List.map_reverse, List.mem_reverse] at none
    exact none hn
  have missing := build_eq_missingValue_iff (n := n) sort given
  have answers : ∀ s, d.build = .ok s → Stated.of t values = .ok s ∧
      ∀ w, s.values.lookup n = some w → ((Description.stated s).named n).result = .ok w := by
    intro s built
    have of := (Stated.of_eq_build given).trans built
    have type : s.type = t := Stated.type_of of
    exact ⟨of, fun w ↦ Stated.named_of_lookup (type ▸ obtained.owned) (type ▸ declared)⟩
  refine ⟨v, hv, fun once ↦ ⟨fun err ↦ ?_, fun s built ↦ ?_⟩,
    fun more ↦ ⟨missing, fun s built ↦ ?_⟩⟩
  · obtain ⟨a, first, rfl⟩ := missing.1 err
    exact count_ne_one_of_lacks first hn once
  · obtain ⟨of, answers⟩ := answers s built
    refine answers v ?_
    rw [Stated.lookup_of of, if_pos once, hv, Option.some_or]
  · obtain ⟨of, answers⟩ := answers s built
    obtain ⟨w, hw⟩ := Stated.filled_of_of of n (Stated.type_of of ▸ declared)
    refine ⟨w, ?_, answers w hw⟩
    rw [Stated.lookup_of of, if_neg more] at hw
    exact hw

/-- The last label of a parcel is kept, and the count of a tally is lost. -/
theorem given_kept_or_lost_parcel :
    ((Description.stated
      ⟨Stated.parcelType, [("label", .string "oats"), ("weight", .int 1)]⟩).named "label").result =
        .ok (.string "oats") ∧
    ((Description.stated Stated.tally).named "count").result = .ok (.string "many") := by
  have parcel : TypeDecl.declare "com.example.Parcel"
      [⟨"label", .string, none⟩, ⟨"weight", .int, some (.int 1)⟩] = .ok Stated.parcelType := rfl
  have labels : (empty Stated.parcelType).defineAll
      [("label", .string "rye"), ("label", .string "oats")] = .ok ⟨_, _⟩ := rfl
  have count : (empty Stated.tallyType).defineAll [("count", .int 1)] = .ok ⟨_, _⟩ := rfl
  obtain ⟨v, last, kept, -⟩ :=
    given_kept_or_lost (n := "label") (.declared parcel) rfl labels (by decide)
  cases last
  obtain ⟨-, -, -, lost⟩ :=
    given_kept_or_lost (n := "count") (.declared Stated.tally_of_declare.1) rfl count (by decide)
  obtain ⟨w, default, answer⟩ := (lost (by decide)).2 Stated.tally rfl
  cases default
  exact ⟨(kept (by decide)).2 _ rfl, answer⟩

/-- A type with two accessors of one name, and no default values. -/
def scoreType : TypeDecl :=
  .ofDrafts "com.example.Score" [⟨"count", .int, none⟩, ⟨"count", .int, none⟩]

/-- Of two declared types with two accessors of one name: a count is lost to a default value, and
a count is said to be missing. -/
theorem count_lost :
    (TypeDecl.declare "com.example.Tally"
      [⟨"count", .int, none⟩, ⟨"count", .string, some (.string "many")⟩] =
        .ok Stated.tallyType ∧
      (∃ d, (empty Stated.tallyType).defineAll [("count", .int 1)] = .ok d ∧
        d.build = .ok Stated.tally) ∧
      ((Description.stated Stated.tally).named "count").result = .ok (.string "many")) ∧
    TypeDecl.declare "com.example.Score" [⟨"count", .int, none⟩, ⟨"count", .int, none⟩] =
      .ok scoreType ∧
    ∃ d, (empty scoreType).defineAll [("count", .int 1)] = .ok d ∧
      d.build = .error (.missingValue "com.example.Score" "count") :=
  ⟨⟨rfl, ⟨_, rfl, rfl⟩, rfl⟩, rfl, _, rfl, rfl⟩

end Draft

end Annotations
