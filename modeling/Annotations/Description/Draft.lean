import Annotations.Value.Conformance

/-!
# Drafts of types and annotations

A declared type is made from drafts of its accessors, whose default values have to conform to their
kinds. A stated annotation is made from a draft that takes values one by one, each for a declared
accessor and conforming to its kind, and is then completed from the default values.
-/

namespace Annotations

/-- What is said of an accessor in the declaration of its type. -/
structure AccessorDraft where
  name : String
  kind : Kind
  default? : Option Value

namespace AccessorDraft

/-- The accessor of the type with the given name. -/
def on (owner : String) (a : AccessorDraft) : Accessor :=
  .stated owner a.name a.kind a.default?

/-- Refuses a default value that does not conform to the kind. -/
def check (a : AccessorDraft) : Except ReadError Unit :=
  match a.default? with
  | none => .ok ()
  | some v => (v.checked a.kind).map fun _ ↦ ()

end AccessorDraft

/-- An annotation type with accessors as drafted. -/
def TypeDecl.ofDrafts (name : String) (drafts : List AccessorDraft) : TypeDecl :=
  ⟨name, .annotationType, drafts.map (·.on name), []⟩

/-- The annotation type with accessors as drafted, if all default values conform; else the first
one that does not is the cause. -/
def TypeDecl.declare (name : String) (drafts : List AccessorDraft) : Except ReadError TypeDecl :=
  (drafts.forM AccessorDraft.check).map fun _ ↦ .ofDrafts name drafts

/-- A stated annotation in the making. -/
structure Draft where
  type : TypeDecl
  /-- The values given so far, by the names of their accessors. -/
  given : List (String × Value)

namespace Draft

/-- A draft without values. -/
def empty (t : TypeDecl) : Draft := ⟨t, []⟩

/-- Gives an accessor a value; a later value for the same accessor replaces it. -/
def define (d : Draft) (name : String) (v : Value) : Except ReadError Draft :=
  match d.type.accessor? name with
  | none => .error (.accessorNotFound d.type.name name)
  | some a => (v.checked a.kind).map fun v ↦ { d with given := Entries.set name v d.given }

/-- Gives values in order. -/
def defineAll (d : Draft) (values : List (String × Value)) : Except ReadError Draft :=
  values.foldlM (fun d e ↦ d.define e.1 e.2) d

/-- Goes through the accessors in the order of declaration and takes for each the value that was
given for it, and no longer counts as given, or else its default value. -/
def complete (typeName : String) :
    List Accessor → (given values : List (String × Value)) →
      Except ReadError (List (String × Value))
  | [], _, values => .ok values
  | a :: as, given, values =>
    match given.lookup a.name with
    | some v => complete typeName as (Entries.remove a.name given) (Entries.set a.name v values)
    | none =>
      match a.default? with
      | some v => complete typeName as given (Entries.set a.name v values)
      | none => .error (.missingValue typeName a.name)

/-- The annotation of the draft. -/
def build (d : Draft) : Except ReadError Stated :=
  if d.type.isAnnotationType then
    (complete d.type.name d.type.accessors d.given []).map fun values ↦ ⟨d.type, values⟩
  else .error (.typeMismatch "annotation type" d.type.name)

end Draft

/-- The annotation of a type with the given values, defined in order. -/
def Stated.of (t : TypeDecl) (values : List (String × Value)) : Except ReadError Stated := do
  let d ← (Draft.empty t).defineAll values
  d.build

end Annotations
