import Annotations.Live.Handle
import Annotations.Entries

/-!
# Declared types, values and annotations

The things that a question about annotations is asked of and answered with. A declared type lists
the accessors that it declares (`TypeDecl`, `Accessor`), a value is what an accessor gives
(`Value`), and constants and annotations come in two forms: stated ones are given by their parts,
live ones exist as objects and are asked for theirs (`Constant`, `Description`).

Types are the same when their names are, accessors when owner and name are, and constants when the
names of their types and their own names are; so a stated thing and a live one can be the same.

A live annotation is read by an inspector (`Live`, `Inspector`), and it is the inspector that makes
a value of what a method gave back. So values and inspectors are declared together. In the value
there can be annotations that are to be read with this same inspector, perhaps in another state;
these it leaves open (`OpenValue`).
-/

namespace Annotations

mutual

/-- A declared type: its accessors, if it is an annotation type, and its constants, if it is an
enumeration. -/
structure TypeDecl where
  name : String
  sort : TypeSort
  accessors : List Accessor
  constants : List String

/-- An accessor that a type declares: a stated one may have a default value, a live one has the
method that gives its values. -/
inductive Accessor where
  | stated (owner name : String) (kind : Kind) (default : Option Value)
  | live (method : LiveMethod)

/-- What an accessor gives. -/
inductive Value where
  | boolean (b : Bool)
  | byte (n : Int8)
  | char (c : Char)
  | short (n : Int16)
  | int (n : Int32)
  | long (n : Int64)
  | float (x : Binary32)
  | double (x : Binary64)
  | string (s : String)
  | type (t : TypeDecl)
  | constant (c : Constant)
  | nested (d : Description)
  | array (vs : List Value)

/-- A constant of an enumeration. -/
inductive Constant where
  | stated (type : TypeDecl) (name : String)
  | live (c : LiveConstant)

/-- An annotation whose values are given, in order and by the names of their accessors. -/
structure Stated where
  type : TypeDecl
  values : List (String × Value)

/-- An annotation in either form. -/
inductive Description where
  | stated (s : Stated)
  | live (l : Live)

/-- An annotation that exists as an object, and how it is read. -/
structure Live where
  object : Instance
  inspector : Inspector

/-- An object that reads live annotations. It has rules for each state that it can be in, and is in
one of them; a state is whatever the object holds, as a number. -/
structure Inspector where
  rules : Nat → Rules
  state : Nat

/-- How live annotations are read in one state of an inspector. -/
structure Rules where
  /-- Finds the method for an accessor on a type. -/
  resolve : LiveType → Handle → Eval LiveMethod
  /-- Calls a method on an instance. -/
  invoke : LiveMethod → Instance → Eval Output
  /-- Makes a value of what a method gave back. -/
  normalize : Output → Traced OpenValue
  /-- The inspector of the annotations in outputs that are taken as usual; without one it is the
  inspector itself. -/
  nested : Option Inspector

/-- What an inspector makes of an output: a value with annotations left open, which are read with
the inspector itself. -/
inductive OpenValue where
  /-- What is usual for the output. -/
  | usual (o : Output)
  /-- A value in which nothing is left open. -/
  | closed (v : Value)
  /-- The annotation of an instance, to be read with the inspector in this state. -/
  | live (o : Instance) (state : Nat)
  | type (t : OpenType)
  | constant (type : OpenType) (name : String)
  | stated (type : OpenType) (values : List (String × OpenValue))
  | array (vs : List OpenValue)

/-- A declared type with annotations left open in default values. -/
structure OpenType where
  name : String
  sort : TypeSort
  accessors : List OpenAccessor
  constants : List String

/-- An accessor with annotations left open in its default value. -/
inductive OpenAccessor where
  | stated (owner name : String) (kind : Kind) (default : Option OpenValue)
  | live (method : LiveMethod)

end

/-! ### Accessors and declared types -/

namespace Accessor

/-- What identifies the accessor. -/
def handle : Accessor → Handle
  | stated o n k _ => .stated o n k
  | live m => .live m

/-- The accessor's name. -/
def name (a : Accessor) : String := a.handle.name

/-- The name of the type that declares the accessor. -/
def owner (a : Accessor) : String := a.handle.owner

/-- The declared kind. -/
def kind (a : Accessor) : Kind := a.handle.kind

/-- How the accessor is shown. -/
def text (a : Accessor) : String := a.handle.text

/-- The value of an accessor that was given none. -/
def default? : Accessor → Option Value
  | stated _ _ _ d => d
  | live _ => none

@[simp] theorem name_handle (a : Accessor) : a.handle.name = a.name := rfl

@[simp] theorem owner_handle (a : Accessor) : a.handle.owner = a.owner := rfl

@[simp] theorem kind_handle (a : Accessor) : a.handle.kind = a.kind := rfl

end Accessor

namespace TypeDecl

/-- An enumeration type. -/
def enumeration (name : String) (constants : List String) : TypeDecl :=
  ⟨name, .enumerationType, [], constants⟩

/-- A class. -/
def classType (name : String) : TypeDecl :=
  ⟨name, .classType, [], []⟩

/-- Whether the type is an annotation type. -/
def isAnnotationType (t : TypeDecl) : Bool :=
  t.sort == .annotationType

/-- The first accessor of this name. -/
def accessor? (t : TypeDecl) (name : String) : Option Accessor :=
  t.accessors.find? (·.name == name)

/-- The type declares the accessor: it is the owner, and has one of that name. -/
def declares (t : TypeDecl) (h : Handle) : Bool :=
  h.owner == t.name && (t.accessor? h.name).isSome

/-- The names of the accessors in the order of declaration. -/
def accessorNames (t : TypeDecl) : List String :=
  t.accessors.map Accessor.name

/-- The detailed form of a type; its accessors and constants are left out. -/
def detail (t : TypeDecl) : String :=
  Text.detailed "TypeDescription" [("name", Text.quoted t.name), ("kind", t.sort.tag)] false

/-- The digest of a type is that of its name. -/
def digest (t : TypeDecl) : UInt64 :=
  Annotations.digest (Digest.textBytes t.name)

theorem accessor?_isSome {t : TypeDecl} {name : String} :
    (t.accessor? name).isSome = true ↔ name ∈ t.accessorNames := by
  simp [accessor?, accessorNames, List.find?_isSome]

theorem declares_iff {t : TypeDecl} {h : Handle} :
    t.declares h = true ↔ h.owner = t.name ∧ h.name ∈ t.accessorNames := by
  simp only [declares, Bool.and_eq_true, beq_iff_eq, accessor?_isSome]

end TypeDecl

/-- The declared type that a live type describes: its accessors are the methods without
parameters. -/
def LiveType.describe (t : LiveType) : TypeDecl :=
  ⟨t.name, t.sort, t.accessors.map .live, t.constants⟩

@[simp] theorem LiveType.name_describe (t : LiveType) : t.describe.name = t.name := rfl

/-! ### Constants -/

namespace Constant

/-- The constant's name. -/
def name : Constant → String
  | stated _ n => n
  | live c => c.name

/-- The type of the constant. -/
def type : Constant → TypeDecl
  | stated t _ => t
  | live c => c.type.describe

/-- The name of the type of the constant. -/
def typeName (c : Constant) : String :=
  c.type.name

/-- How the constant is shown. -/
def text (c : Constant) : String :=
  c.typeName ++ "." ++ c.name

/-- The same constant: of the same name, and of types of the same name. -/
def same (c d : Constant) : Bool :=
  c.typeName == d.typeName && c.name == d.name

/-- The digest of a constant is that of the name of its type and its own. -/
def digest (c : Constant) : UInt64 :=
  Annotations.digest (Digest.textBytes c.typeName ++ Digest.textBytes c.name)

theorem same_iff {c d : Constant} :
    c.same d = true ↔ c.typeName = d.typeName ∧ c.name = d.name := by
  simp [same]

theorem digest_eq_of_same {c d : Constant} (h : c.same d = true) : c.digest = d.digest := by
  obtain ⟨t, n⟩ := same_iff.mp h
  simp [digest, t, n]

end Constant

/-! ### Annotations -/

namespace Description

/-- The type of the annotation. -/
def type : Description → TypeDecl
  | stated s => s.type
  | live l => l.object.type.describe

/-- The name of the type of the annotation. -/
def typeName (d : Description) : String :=
  d.type.name

end Description

end Annotations
