import Annotations.Proofs.Drafts
import Annotations.Proofs.Parts
import Annotations.Written.Write

/-!
# What is read back

Reading knows no live types, methods or constants: all that it makes is stated. `Value.restate`,
`TypeDecl.restate` and their kin say what a thing becomes when it is written and read again, if it
has no live annotation in it: live constants become stated ones of the same type and name, and live
accessors become stated ones of the same name and kind, without default value. Types keep their
names, sorts, constants and the order of their accessors; values keep their names and their order.

What is restated is written the same (`Part.doc_restate`) and conforms to the same kinds
(`Value.conforms_restate`).
-/

namespace Annotations

/-- The stated type that a live type is read back as. -/
def LiveType.stated (t : LiveType) : TypeDecl :=
  ⟨t.name, t.sort, t.accessors.map fun m ↦ .stated t.name m.name m.kind none, t.constants⟩

mutual

/-- A value as it is read back. -/
def Value.restate : Value → Value
  | .type t => .type t.restate
  | .constant c => .constant c.restate
  | .nested d => .nested d.restate
  | .array vs => .array (restateValues vs)
  | v => v

/-- A type as it is read back. -/
def TypeDecl.restate : TypeDecl → TypeDecl
  | ⟨name, sort, accessors, constants⟩ =>
    ⟨name, sort, restateAccessors name accessors, constants⟩

/-- An accessor of the type with the given name as it is read back. -/
def Accessor.restate (owner : String) : Accessor → Accessor
  | .stated _ name kind none => .stated owner name kind none
  | .stated _ name kind (some v) => .stated owner name kind (some v.restate)
  | .live m => .stated owner m.name m.kind none

/-- A constant as it is read back. -/
def Constant.restate : Constant → Constant
  | .stated t name => .stated t.restate name
  | .live c => .stated c.type.stated c.name

/-- A stated annotation as it is read back. -/
def Stated.restate : Stated → Stated
  | ⟨t, values⟩ => ⟨t.restate, restateEntries values⟩

/-- An annotation as it is read back; a live one is not. -/
def Description.restate : Description → Description
  | .stated s => .stated s.restate
  | .live l => .live l

/-- Values as they are read back. -/
def restateValues : List Value → List Value
  | [] => []
  | v :: vs => v.restate :: restateValues vs

/-- Accessors as they are read back. -/
def restateAccessors (owner : String) : List Accessor → List Accessor
  | [] => []
  | a :: as => a.restate owner :: restateAccessors owner as

/-- Named values as they are read back. -/
def restateEntries : List (String × Value) → List (String × Value)
  | [] => []
  | (name, v) :: es => (name, v.restate) :: restateEntries es

end

/-! ### Lists -/

theorem restateValues_eq_map (vs : List Value) : restateValues vs = vs.map Value.restate := by
  induction vs with
  | nil => rfl
  | cons v vs ih => rw [restateValues, ih, List.map_cons]

theorem restateAccessors_eq_map (owner : String) (as : List Accessor) :
    restateAccessors owner as = as.map (Accessor.restate owner) := by
  induction as with
  | nil => rfl
  | cons a as ih => rw [restateAccessors, ih, List.map_cons]

theorem restateEntries_eq_map (es : List (String × Value)) :
    restateEntries es = es.map fun e ↦ (e.1, e.2.restate) := by
  induction es with
  | nil => rfl
  | cons e es ih => rw [restateEntries, ih, List.map_cons]

theorem valueDocs_eq_map (vs : List Value) : valueDocs vs = vs.map Value.doc := by
  induction vs with
  | nil => rfl
  | cons v vs ih => rw [valueDocs, ih, List.map_cons]

theorem accessorDocs_eq_map (as : List Accessor) : accessorDocs as = as.map Accessor.doc := by
  induction as with
  | nil => rfl
  | cons a as ih => rw [accessorDocs, ih, List.map_cons]

theorem entryDocs_eq_map (es : List (String × Value)) :
    entryDocs es = es.map fun e ↦ (e.1, e.2.doc) := by
  induction es with
  | nil => rfl
  | cons e es ih => rw [entryDocs, ih, List.map_cons]

/-! ### What stays the same -/

theorem Value.restate_of_isScalar {v : Value} (h : v.IsScalar) : v.restate = v := by
  cases v <;> first | rfl | exact h.elim

namespace Accessor

variable (owner : String) (a : Accessor)

@[simp] theorem name_restate : (a.restate owner).name = a.name := by
  cases a with
  | stated o n k d => cases d <;> rfl
  | live m => rfl

@[simp] theorem kind_restate : (a.restate owner).kind = a.kind := by
  cases a with
  | stated o n k d => cases d <;> rfl
  | live m => rfl

@[simp] theorem default?_restate : (a.restate owner).default? = a.default?.map Value.restate := by
  cases a with
  | stated o n k d => cases d <;> rfl
  | live m => rfl

end Accessor

namespace TypeDecl

variable (t : TypeDecl)

theorem restate_eq :
    t.restate = ⟨t.name, t.sort, t.accessors.map (Accessor.restate t.name), t.constants⟩ := by
  obtain ⟨name, sort, accessors, constants⟩ := t
  rw [restate, restateAccessors_eq_map]

@[simp] theorem name_restate : t.restate.name = t.name := by
  rw [restate_eq]

@[simp] theorem isAnnotationType_restate : t.restate.isAnnotationType = t.isAnnotationType := by
  rw [restate_eq]
  rfl

theorem accessors_restate : t.restate.accessors = t.accessors.map (Accessor.restate t.name) := by
  rw [restate_eq]

@[simp] theorem accessorNames_restate : t.restate.accessorNames = t.accessorNames := by
  simp [accessorNames, accessors_restate]

theorem accessor?_restate (n : String) :
    t.restate.accessor? n = (t.accessor? n).map (Accessor.restate t.name) := by
  have name : ((fun a : Accessor ↦ a.name == n) ∘ Accessor.restate t.name) =
      fun a ↦ a.name == n := by
    funext a
    simp
  rw [accessor?, accessors_restate, List.find?_map, name, accessor?]

end TypeDecl

theorem Stated.restate_eq (s : Stated) :
    s.restate = ⟨s.type.restate, s.values.map fun e ↦ (e.1, e.2.restate)⟩ := by
  obtain ⟨t, values⟩ := s
  rw [restate, restateEntries_eq_map]

@[simp] theorem Constant.typeName_restate (c : Constant) : c.restate.typeName = c.typeName := by
  cases c with
  | stated t n => rw [restate, typeName, type, TypeDecl.name_restate, typeName, type]
  | live c => rfl

@[simp] theorem Description.typeName_restate (d : Description) :
    d.restate.typeName = d.typeName := by
  cases d with
  | stated s =>
    rw [restate, Stated.restate_eq, typeName, type, TypeDecl.name_restate, typeName, type]
  | live l => rfl

/-- What is read back conforms to the same kinds. -/
theorem Value.conforms_restate (k : Kind) (v : Value) : v.restate.conforms k = v.conforms k := by
  induction k generalizing v with
  | array k ih =>
    cases v with
    | array vs =>
      rw [restate, conforms_array, conforms_array, restateValues_eq_map, List.all_map]
      congr 1
      funext v
      exact ih v
    | _ => rfl
  | _ => cases v <;> simp [restate, conforms]

/-- A type that is read back takes the same values. -/
theorem TypeDecl.Takes.restate {t : TypeDecl} {n : String} {v : Value} (h : t.Takes (n, v)) :
    t.restate.Takes (n, v.restate) := by
  obtain ⟨a, found, conforms⟩ := h
  refine ⟨a.restate t.name, ?_, ?_⟩
  · rw [accessor?_restate, found]
    rfl
  · rw [Accessor.kind_restate]
    exact (v.conforms_restate a.kind).trans conforms

/-! ### The written form -/

namespace Part

/-- A part as it is read back. -/
def restate : Part → Part
  | value v => value v.restate
  | type t => type t.restate
  | stated s => stated s.restate
  | live l => live l

/-- The written form of a frozen part. -/
def doc : Part → Doc
  | value v => v.doc
  | type t => t.doc
  | stated s => s.doc
  | live _ => .null

end Part

theorem LiveType.doc_stated (t : LiveType) : t.stated.doc = t.doc := by
  rw [stated, TypeDecl.doc, accessorDocs_eq_map, LiveType.doc, List.map_map]
  rfl

theorem TypeDecl.doc_eq (t : TypeDecl) :
    t.doc = typeDoc t.name t.sort (t.accessors.map Accessor.doc) t.constants := by
  obtain ⟨name, sort, accessors, constants⟩ := t
  rw [doc, accessorDocs_eq_map]

theorem Stated.doc_eq (s : Stated) :
    s.doc = .object [("type", s.type.doc),
      ("values", .object (s.values.map fun e ↦ (e.1, e.2.doc)))] := by
  obtain ⟨t, values⟩ := s
  rw [doc, entryDocs_eq_map]

private theorem Accessor.doc_restate {a : Accessor} (owner : String)
    (h : ∀ v, a.default? = some v → v.restate.doc = v.doc) : (a.restate owner).doc = a.doc := by
  cases a with
  | stated o n k d =>
    cases d with
    | none => rfl
    | some v => rw [restate, doc, doc, h v rfl]
  | live m => rfl

/-- **What is read back is written the same.** -/
theorem Part.doc_restate (p : Part) : p.restate.doc = p.doc := by
  have h : p.Throughout fun _ ↦ True := fun _ _ ↦ trivial
  induction p, h using Part.throughout_rec with
  | scalar v _ hv => cases v <;> first | rfl | cases hv
  | typed t _ _ ih =>
    have ih : t.restate.doc = t.doc := ih
    simp only [restate, doc, Value.restate, Value.doc, ih]
  | constant t n _ _ ih =>
    have ih : t.restate.doc = t.doc := ih
    simp only [restate, doc, Value.restate, Value.doc, Constant.restate, Constant.doc, ih]
  | liveConstant c _ =>
    simp only [restate, doc, Value.restate, Value.doc, Constant.restate, Constant.doc,
      LiveType.doc_stated]
  | nested s _ _ ih =>
    have ih : s.restate.doc = s.doc := ih
    simp only [restate, doc, Value.restate, Value.doc, Description.restate, Description.doc, ih]
  | liveNested l _ _ _ => rfl
  | array vs _ ih =>
    have same : vs.map (Value.doc ∘ Value.restate) = vs.map Value.doc :=
      List.map_congr_left fun v hv ↦ (ih v hv).2
    simp only [restate, doc, Value.restate, Value.doc, restateValues_eq_map, valueDocs_eq_map,
      List.map_map, same]
  | type t _ ih =>
    have same : t.accessors.map (Accessor.doc ∘ Accessor.restate t.name) =
        t.accessors.map Accessor.doc :=
      List.map_congr_left fun a ha ↦ a.doc_restate t.name fun v hv ↦ (ih a ha v hv).2
    simp only [restate, doc, TypeDecl.restate_eq, TypeDecl.doc_eq, List.map_map, same]
  | stated s _ _ type values =>
    have type : s.type.restate.doc = s.type.doc := type
    have same : s.values.map ((fun e ↦ (e.1, e.2.doc)) ∘ fun e ↦ (e.1, e.2.restate)) =
        s.values.map fun e ↦ (e.1, e.2.doc) :=
      List.map_congr_left fun e he ↦ congrArg (e.1, ·) (values e he).2
    simp only [restate, doc, Stated.restate_eq, Stated.doc_eq, List.map_map, type, same]
  | live l _ => rfl

/-! ### Live annotations -/

/-- Where there is no live annotation, there is none in what is read back. -/
theorem Part.notLive_restate {p : Part} (h : p.Throughout NotLive) :
    p.restate.Throughout NotLive := by
  induction p, h using Part.throughout_rec with
  | scalar v _ hv =>
    rw [restate, Value.restate_of_isScalar hv]
    exact (throughout_scalar_iff hv).2 trivial
  | typed t _ _ ih => exact throughout_typed_iff.2 ⟨trivial, ih⟩
  | constant t n _ _ ih => exact throughout_constant_iff.2 ⟨trivial, ih⟩
  | liveConstant c _ =>
    refine throughout_constant_iff.2 ⟨trivial, throughout_type_iff.2 ⟨trivial, ?_⟩⟩
    intro a ha v hv
    obtain ⟨m, -, rfl⟩ := List.mem_map.1 ha
    cases hv
  | nested s _ _ ih => exact throughout_nested_iff.2 ⟨trivial, ih⟩
  | liveNested l _ h _ => exact h.self.elim
  | array vs _ ih =>
    rw [restate, Value.restate, restateValues_eq_map]
    refine throughout_array_iff.2 ⟨trivial, fun _ hmem ↦ ?_⟩
    obtain ⟨v, hv, rfl⟩ := List.mem_map.1 hmem
    exact (ih v hv).2
  | type t _ ih =>
    rw [restate, TypeDecl.restate_eq]
    refine throughout_type_iff.2 ⟨trivial, fun _ hmem _ default ↦ ?_⟩
    obtain ⟨a, ha, rfl⟩ := List.mem_map.1 hmem
    rw [Accessor.default?_restate] at default
    obtain ⟨v, hv, rfl⟩ := Option.map_eq_some_iff.1 default
    exact (ih a ha v hv).2
  | stated s _ _ type values =>
    rw [restate, Stated.restate_eq]
    refine throughout_stated_iff.2 ⟨trivial, type, fun _ hmem ↦ ?_⟩
    obtain ⟨e, he, rfl⟩ := List.mem_map.1 hmem
    exact (values e he).2
  | live l h => exact h.self.elim

end Annotations
