import Annotations.Proofs.Kinded
import Annotations.Proofs.Snapshot

/-!
# Which accessors a stated annotation answers

A stated annotation is looked up in two steps: its type has to declare the accessor, and there has
to be an entry of the accessor's name. Nothing in a list of entries makes the second step succeed.
**It is never the one that fails**, however the annotation came about (`Stated.Formed`): its entries
are named as the accessors of its type, each name once and in the order of the first declarations
(`Stated.Arranged`). So a declared accessor is answered, whatever handle it is asked for by, and
any other is reported missing (`Stated.answers_of_formed`).

Nothing is asked of the type here. It may declare a name more than once, it may declare accessors of
other owners, and it may be of another sort than annotation types are.
-/

namespace Annotations

namespace Stated

/-- How a stated annotation comes about: it is built by a draft of any type, it is what an
annotation was detached to, or it occurs in something that was read from a text. -/
inductive Formed : Stated → Prop
  | drafted {t : TypeDecl} {values : List (String × Value)} {s : Stated}
    (h : Stated.of t values = .ok s) : Formed s
  | detached {d : Description} {limit : Nat} {s : Stated}
    (h : (d.detach limit).result = .ok s) : Formed s
  | read {p : Part} {s : Stated} (h : p.IsRead) (contains : p.Contains (.stated s)) : Formed s

variable {s : Stated}

theorem Formed.arranged (h : s.Formed) : s.Arranged := by
  cases h with
  | drafted h => exact arranged_of h
  | @detached d limit _ h =>
    cases limit with
    | zero => cases h
    | succ room => exact Description.arranged_of_detachWithin h
  | read h contains =>
    obtain ⟨values, h⟩ := h.built _ contains
    exact arranged_of h

/-- **A declared accessor is answered** with the entry of its name. -/
theorem Arranged.get_of_declares (h : s.Arranged) {g : Handle}
    (declared : s.type.declares g = true) :
    ∃ v, (g.name, v) ∈ s.values ∧ s.get g = .ok v := by
  have named : g.name ∈ Entries.names s.values :=
    h.mem_names_iff.2 (TypeDecl.declares_iff.1 declared).2
  obtain ⟨⟨n, v⟩, entry, rfl⟩ := List.mem_map.1 named
  exact ⟨v, entry, get_eq_ok_iff.2 ⟨declared, Entries.lookup_of_mem h.nodup entry⟩⟩

/-- Any other accessor is reported missing; this takes only the first step. -/
theorem get_of_not_declares {g : Handle} (undeclared : s.type.declares g = false) :
    s.get g = .error (.accessorNotFound s.type.name g.text) := by
  simp [get, undeclared]

/-- **Which accessors a stated annotation answers**, in whatever way it came about.

* Its entries are named as the accessors that its type declares, each name once, in the order of
  the first declarations.
* Every handle that its type declares is answered, with the entry of the handle's name.
* Every other handle is reported missing. -/
theorem answers_of_formed (formed : s.Formed) :
    Entries.names s.values = s.type.accessorNames.eraseDups ∧
    (Entries.names s.values).Nodup ∧
    (∀ n, n ∈ Entries.names s.values ↔ n ∈ s.type.accessorNames) ∧
    (∀ h, s.type.declares h = true →
      ∃ v, (h.name, v) ∈ s.values ∧ ((Description.stated s).get h).result = .ok v) ∧
    ∀ h, s.type.declares h = false →
      ((Description.stated s).get h).result = .error (.accessorNotFound s.type.name h.text) :=
  have arranged := formed.arranged
  ⟨arranged, arranged.nodup, fun _ ↦ arranged.mem_names_iff,
    fun _ declared ↦ arranged.get_of_declares declared,
    fun _ undeclared ↦ get_of_not_declares undeclared⟩

/-- The written form of a tally that is given a number. -/
def tallyDoc : Doc :=
  .object [("type", tallyType.doc), ("values", .object [("count", (Value.int 1).doc)])]

private theorem tally_of_read : Stated.read tallyDoc.write = .ok tally := by
  rw [Stated.read, Stated.readIn, Parsed.json_write]
  rfl

/-- A tally, whose type declares one name twice, is built by a draft or read from a text; a pair is
detached. Each answers just what its type declares. -/
theorem answers_of_formed_tally :
    Stated.of tallyType [("count", .int 1)] = .ok tally ∧
    Stated.read tallyDoc.write = .ok tally ∧
    tally.type.accessorNames = ["count", "count"] ∧ Entries.names tally.values = ["count"] ∧
    (∃ v, ((Description.stated tally).get (.stated "com.example.Tally" "count" .int)).result =
      .ok v) ∧
    ((Description.stated tally).get (.stated "com.example.Other" "count" .int)).result =
      .error (.accessorNotFound "com.example.Tally" "com.example.Other.count()") ∧
    (Registry.livePair.detach 64).result = .ok Registry.detachedPair ∧
    Entries.names Registry.detachedPair.values = ["weight", "marker"] := by
  have drafted : Stated.of tallyType [("count", .int 1)] = .ok tally := rfl
  have detached : (Registry.livePair.detach 64).result = .ok Registry.detachedPair := rfl
  obtain ⟨names, -, -, declared, -⟩ := answers_of_formed (.drafted drafted)
  obtain ⟨-, -, -, -, undeclared⟩ := answers_of_formed (.read (.stated tally_of_read) .refl)
  obtain ⟨v, -, hv⟩ := declared (.stated "com.example.Tally" "count" .int) (by decide)
  exact ⟨drafted, tally_of_read, rfl, names, ⟨v, hv⟩, undeclared _ (by decide), detached,
    (answers_of_formed (.detached detached)).1⟩

end Stated

end Annotations
