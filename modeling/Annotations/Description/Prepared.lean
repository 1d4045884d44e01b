import Annotations.Description.Lookup
import Annotations.Live.Instance

/-!
# Loading annotations and constants

An annotation class has a live type and instances of its own; from any annotation of the type an
instance can be made by reading its values. Preparing an annotation for a class checks that it
belongs there: a stated one by the name of its type, a live one by its instance. Loading a prepared
annotation then gives the instance itself, or one made from the stated values.

For the constants of an enumeration class it is the same, but preparing goes by the name of the type
in both cases.
-/

namespace Annotations

/-- An enumeration class of the catalogue. -/
class EnumerationClass (α : Type) where
  /-- The type of the constants. -/
  type : LiveType
  /-- The constant with a name. -/
  ofName? : String → Option α
  /-- The constant that an object is. -/
  ofConstant? : LiveConstant → Option α

instance : EnumerationClass Color where
  type := Color.liveType
  ofName? := Color.ofName?
  ofConstant?
    | .color c => some c
    | _ => none

instance : EnumerationClass Priority where
  type := Priority.liveType
  ofName? := Priority.ofName?
  ofConstant?
    | .priority p => some p
    | _ => none

/-- A constant that has been checked to be of the type of an enumeration class. -/
structure PreparedConstant (α : Type) where
  constant : Constant

/-- Checks that a constant is of the type of an enumeration class. -/
def Constant.prepare (α : Type) [EnumerationClass α] (c : Constant) :
    Except ReadError (PreparedConstant α) :=
  let expected := (EnumerationClass.type α).name
  if expected = c.typeName then .ok ⟨c⟩ else .error (.typeMismatch expected c.typeName)

/-- The constant of the class: the object itself, or the one with the stated name. -/
def PreparedConstant.load {α : Type} [EnumerationClass α] (p : PreparedConstant α) :
    Except ReadError α :=
  match p.constant with
  | .live c =>
    match EnumerationClass.ofConstant? c with
    | some x => .ok x
    | none => .error (.typeMismatch (EnumerationClass.type α).name c.type.name)
  | .stated t name =>
    match EnumerationClass.ofName? name with
    | some x => .ok x
    | none => .error (.unknownConstant t.name name)

/-- An annotation class of the catalogue. -/
class AnnotationClass (α : Type) where
  /-- The type of the instances. -/
  type : LiveType
  /-- The instance that an object is. -/
  ofInstance? : Instance → Option α
  /-- The instance with the values of an annotation. -/
  materialize : Description → Eval α

/-- An annotation that has been checked to belong to an annotation class. -/
structure Prepared (α : Type) where
  description : Description

/-- Whether an annotation belongs to a class. -/
def Description.belongsTo (α : Type) [AnnotationClass α] : Description → Bool
  | stated s => s.type.name == (AnnotationClass.type α).name
  | live l => (AnnotationClass.ofInstance? l.object : Option α).isSome

/-- Checks that an annotation belongs to a class. -/
def Description.prepare (α : Type) [AnnotationClass α] (d : Description) :
    Except ReadError (Prepared α) :=
  if d.belongsTo α then .ok ⟨d⟩
  else .error (.typeMismatch (AnnotationClass.type α).name d.typeName)

/-- The instance of the class: the object itself, or one made from the stated values. -/
def Prepared.load {α : Type} [AnnotationClass α] (p : Prepared α) : Eval α :=
  match p.description with
  | .live l =>
    match AnnotationClass.ofInstance? l.object with
    | some x => pure x
    | none => throw (.typeMismatch (AnnotationClass.type α).name l.object.type.name)
  | .stated s => AnnotationClass.materialize (.stated s)

/-- The class of the catalogue with the name of a type. -/
def TypeDecl.knownClass (t : TypeDecl) : Except ReadError LiveType :=
  match knownClasses.find? (·.name == t.name) with
  | some c => .ok c
  | none => .error (.typeMismatch "a known class" t.name)

/-! ### The classes of the catalogue -/

instance : AnnotationClass Marker where
  type := Marker.liveType
  ofInstance?
    | .marker m => some m
    | _ => none
  materialize d := do
    let value : Int32 ← d.namedAs "value" .int
    pure ⟨value⟩

instance : AnnotationClass Other where
  type := Other.liveType
  ofInstance?
    | .other o => some o
    | _ => none
  materialize d := do
    let value : Int32 ← d.namedAs "value" .int
    pure ⟨value⟩

instance : AnnotationClass Sealed where
  type := Sealed.liveType
  ofInstance?
    | .sealed s => some s
    | _ => none
  materialize d := do
    let level : Int32 ← d.namedAs "visible" .int
    pure ⟨level⟩

instance : AnnotationClass Broken where
  type := Broken.liveType
  ofInstance?
    | .broken b => some b
    | _ => none
  materialize _ := pure ⟨⟩

instance : AnnotationClass Loop where
  type := Loop.liveType
  ofInstance?
    | .loop l => some l
    | _ => none
  materialize d := do
    let depth : Int32 ← d.namedAs "depth" .int
    pure ⟨depth⟩

/-- The color that a constant is. -/
def Constant.asColor (c : Constant) : Eval Color :=
  Eval.ofExcept do
    let p ← c.prepare Color
    p.load

/-- The marker that an annotation is. -/
def Description.asMarker (d : Description) : Eval Marker := do
  let p ← Eval.ofExcept (d.prepare Marker)
  p.load

/-- Reads the lists first, and then the fields in order. -/
def Retry.materialize (d : Description) : Eval Retry := do
  let retryOn : List Constant ← d.namedAs "retry_on" (.list .constant)
  let retryOn ← retryOn.mapM Constant.asColor
  let exceptions : List TypeDecl ← d.namedAs "exceptions" (.list .type)
  let exceptions ← exceptions.mapM fun t ↦ Eval.ofExcept t.knownClass
  let markers : List Description ← d.namedAs "markers" (.list .nested)
  let markers ← markers.mapM Description.asMarker
  let attempts : Int32 ← d.namedAs "attempts" .int
  let backoff : Constant ← d.namedAs "backoff" .constant
  let backoff ← backoff.asColor
  let target : TypeDecl ← d.namedAs "target" .type
  let target ← Eval.ofExcept target.knownClass
  let marker : Description ← d.namedAs "marker" .nested
  let marker ← marker.asMarker
  let label : String ← d.namedAs "label" .string
  let weights : List Binary64 ← d.namedAs "weights" (.list .double)
  pure { attempts, backoff, retryOn, target, exceptions, marker, markers, label, weights }

instance : AnnotationClass Retry where
  type := Retry.liveType
  ofInstance?
    | .retry r => some r
    | _ => none
  materialize := Retry.materialize

/-! ### The detailed form -/

/-- The detailed form of a plainly read instance of the catalogue that has been prepared, from the
detailed form of the instance. -/
def preparedDetail (object : String) : String :=
  "Loadable(Loaded(" ++
    Text.detailed "LoadedAnnotation" [("instance", object), ("introspector", "Reflection")] false ++
    "))"

end Annotations
