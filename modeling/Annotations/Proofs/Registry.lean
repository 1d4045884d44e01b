import Annotations.Proofs.Handles
import Annotations.Proofs.Reach

/-!
# One live type to a name

Handles are told apart by names, so the library counts on a name standing for one live type. A
`Registry` is a collection of live types of which this is true. It knows the handles that carry no
method or a method of one of its types, and it admits the annotations that are made from such
handles and types (`Registry.Admits`).

Within a registry no handle is foreign to an annotation (`not_foreign`), so a declared accessor is
answered as under its name, whichever annotation the handle comes from (`Admits.get_eq_named`).
-/

namespace Annotations

/-- An annotation of which every own accessor is answered as under its name: a live one is read
plainly, and the accessors of its type are its own. -/
structure Description.Proper (d : Description) : Prop where
  plain : d.Plain
  owned : d.type.Owned

/-- The handle of an own accessor is answered as under the accessor's name. -/
theorem Description.Proper.get_own {d : Description} (hd : d.Proper) {a : Accessor}
    (ha : a ∈ d.type.accessors) : d.get a.handle = d.named a.name :=
  get_eq_named hd.plain hd.owned (not_foreign_of_mem ha) (TypeDecl.declares_of_mem hd.owned ha)

/-- Live types with different names, each made as types are. -/
structure Registry where
  has : LiveType → Prop
  unique : ∀ t u, has t → has u → t.name = u.name → t = u
  regular : ∀ t, has t → t.Regular

namespace Registry

/-- The types of a list, when their names are distinct. -/
def ofList (ts : List LiveType) (distinct : (ts.map LiveType.name).Nodup)
    (regular : ∀ t ∈ ts, t.Regular) : Registry where
  has t := t ∈ ts
  unique _ _ ht hu name := List.inj_on_of_nodup_map distinct ht hu name
  regular := regular

/-- The handle carries no method, or a method of one of the types. -/
def Knows (w : Registry) : Handle → Prop
  | .stated .. => True
  | .live m => ∃ t, w.has t ∧ m ∈ t.methods

/-- The accessors of the type are its own and are known. -/
structure AdmitsType (w : Registry) (t : TypeDecl) : Prop where
  owned : t.Owned
  knows : ∀ a ∈ t.accessors, w.Knows a.handle

/-- The annotation is an object of one of the types and is read plainly, or it is stated of a type
that is admitted. -/
def Admits (w : Registry) : Description → Prop
  | .stated s => w.AdmitsType s.type
  | .live l => l.inspector = .plain ∧ w.has l.object.type

/-- The annotation is admitted, and its accessors have distinct names. -/
structure Orderly (w : Registry) (d : Description) : Prop where
  admits : w.Admits d
  distinct : d.type.accessorNames.Nodup

variable {w : Registry} {d : Description} {h : Handle}

/-- The type of an annotation that is admitted is admitted itself. -/
theorem Admits.type (hd : w.Admits d) : w.AdmitsType d.type := by
  cases d with
  | stated s => exact hd
  | live l =>
    refine ⟨(w.regular _ hd.2).owned_describe, fun a ha ↦ ?_⟩
    obtain ⟨m, hm, rfl⟩ := List.mem_map.1 ha
    exact ⟨l.object.type, hd.2, (LiveType.mem_accessors.1 hm).1⟩

theorem Admits.proper (hd : w.Admits d) : d.Proper := by
  refine ⟨?_, hd.type.owned⟩
  cases d with
  | stated s => trivial
  | live l => exact ⟨hd.1, w.regular _ hd.2⟩

/-- A live annotation that is admitted is orderly: its type is made with distinct accessors. -/
theorem Admits.orderly_live {l : Live} (hl : w.Admits (.live l)) : w.Orderly (.live l) := by
  refine ⟨hl, ?_⟩
  show l.object.type.describe.accessorNames.Nodup
  rw [LiveType.accessorNames_describe]
  exact (w.regular _ hl.2).distinct

/-- A stated annotation of a drafted type is admitted by every registry. -/
theorem admits_ofDrafts (name : String) (drafts : List AccessorDraft)
    (values : List (String × Value)) : w.Admits (.stated ⟨.ofDrafts name drafts, values⟩) := by
  refine ⟨TypeDecl.owned_ofDrafts name drafts, fun a ha ↦ ?_⟩
  obtain ⟨d, -, rfl⟩ := List.mem_map.1 ha
  trivial

/-- **No handle is foreign within a registry.** A method that the type of the object takes at its
word belongs to a type of the same name, and there is only one. -/
theorem not_foreign (hh : w.Knows h) (hd : w.Admits d) : ¬d.Foreign h := by
  cases d with
  | stated s => exact id
  | live l =>
    rintro ⟨m, rfl, owner, -, hnot⟩
    obtain ⟨t, ht, hm⟩ := hh
    have name : t.name = l.object.type.name := ((w.regular t ht).owner_eq m hm).symm.trans owner
    exact hnot (w.unique t _ ht hd.2 name ▸ hm)

/-- **Within a registry an accessor is answered as under its name.** -/
theorem Admits.get_eq_named (hd : w.Admits d) (hh : w.Knows h)
    (declared : d.type.declares h = true) : d.get h = d.named h.name :=
  Description.get_eq_named hd.proper.plain hd.proper.owned (not_foreign hh hd) declared

end Registry

end Annotations
