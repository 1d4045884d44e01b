import Annotations.Binary.Basic
import Annotations.Kind
import Annotations.Text.Detail

/-!
# Live types, instances and outputs

The live side of annotations: types with methods that can be called (`LiveType`, `LiveMethod`),
the annotations and constants that exist as objects (`Instance`, `LiveConstant`), and what a call
gives back (`Output`). All of it is data: a method body says what a call gives, and calling is a
function on that data (`LiveMethod.call`).

Instances come from the catalogue of annotation classes that the library knows by itself, or are
records: instances of any type that hold an outcome for each of some method names.
-/

namespace Annotations

/-- Who may call a method. -/
inductive Visibility where
  | visible
  | hidden
deriving DecidableEq, Repr, Inhabited

/-- The word for a visibility in the detailed form. -/
def Visibility.tag : Visibility → String
  | visible => "Public"
  | hidden => "Private"

/-- The colors of the catalogue. -/
inductive Color where
  | red
  | green
  | blue
deriving DecidableEq, Repr, Inhabited

/-- The priorities of the catalogue. -/
inductive Priority where
  | low
  | high
deriving DecidableEq, Repr, Inhabited

/-- An annotation with one number. -/
structure Marker where
  value : Int32
deriving DecidableEq, Repr, Inhabited

/-- An annotation of the same shape as `Marker` under another name. -/
structure Other where
  value : Int32
deriving DecidableEq, Repr, Inhabited

/-- An annotation with a hidden accessor and with a method that takes a parameter. -/
structure Sealed where
  level : Int32
deriving DecidableEq, Repr, Inhabited

/-- An annotation whose only accessor fails. -/
structure Broken where
deriving DecidableEq, Repr, Inhabited

/-- An annotation that holds one of its own type, one deeper, without end. -/
structure Loop where
  depth : Int32
deriving DecidableEq, Repr, Inhabited

/-- The accessor bodies of the catalogue. -/
inductive BuiltIn where
  | markerValue
  | otherValue
  | sealedLevel
  | sealedSecret
  | brokenValue
  | loopDepth
  | loopNext
  | retryAttempts
  | retryBackoff
  | retryOn
  | retryTarget
  | retryExceptions
  | retryMarker
  | retryMarkers
  | retryLabel
  | retryWeights
deriving DecidableEq, Repr, Inhabited

mutual

/-- A type that exists at run time. -/
structure LiveType where
  name : String
  sort : TypeSort
  /-- All methods, also hidden ones and those that take parameters. -/
  methods : List LiveMethod
  constants : List String

/-- A method of a live type. -/
structure LiveMethod where
  name : String
  /-- The name of the type that declares the method. -/
  owner : String
  parameters : Nat
  visibility : Visibility
  kind : Kind
  body : Body

/-- What a call of a method gives. -/
inductive Body where
  /-- What the catalogue says. -/
  | builtIn (b : BuiltIn)
  /-- The same for every record. -/
  | fixed (outcome : Except String Output)
  /-- What the record holds under the method's name. -/
  | recorded

/-- What a method body gives back, before it is brought into the form of a value. -/
inductive Output where
  | boolean (b : Bool)
  | byte (n : Int8)
  | char (c : Char)
  | short (n : Int16)
  | int (n : Int32)
  | long (n : Int64)
  | float (x : Binary32)
  | double (x : Binary64)
  | string (s : String)
  | type (t : LiveType)
  | types (ts : List LiveType)
  | constant (c : LiveConstant)
  | constants (cs : List LiveConstant)
  | object (i : Instance)
  | objects (is : List Instance)
  | array (os : List Output)

/-- A constant that exists as an object. -/
inductive LiveConstant where
  | color (c : Color)
  | priority (p : Priority)
  /-- A constant of any type and name; it is none of the catalogue, whatever its type. -/
  | free (type : LiveType) (name : String)

/-- An annotation with one accessor for each category of values. -/
structure Retry where
  attempts : Int32
  backoff : Color
  retryOn : List Color
  target : LiveType
  exceptions : List LiveType
  marker : Marker
  markers : List Marker
  label : String
  weights : List Binary64

/-- An annotation that exists as an object. -/
inductive Instance where
  | marker (m : Marker)
  | other (o : Other)
  | sealed (s : Sealed)
  | broken (b : Broken)
  | loop (l : Loop)
  | retry (r : Retry)
  /-- An annotation of any type; it is none of the catalogue, whatever its type. -/
  | record (type : LiveType) (outcomes : List (String × Except String Output))

end

/-- What a call gives: an output, or the message of its failure. -/
abbrev Outcome := Except String Output

/-- How an accessor is shown: `owner.name()`. -/
def accessorText (owner name : String) : String :=
  owner ++ "." ++ name ++ "()"

namespace LiveMethod

/-- How a method is shown. -/
def text (m : LiveMethod) : String :=
  accessorText m.owner m.name

/-- A visible method without parameters. -/
def accessor (name : String) (kind : Kind) (body : Body) : LiveMethod :=
  ⟨name, "", 0, .visible, kind, body⟩

/-- The detailed form of a method; its body is not shown. -/
def detail (m : LiveMethod) : String :=
  Text.detailed "LoadedMethod"
    [("name", Text.quoted m.name), ("declaring_type", Text.quoted m.owner),
      ("parameter_count", toString m.parameters), ("visibility", m.visibility.tag),
      ("return_kind", m.kind.detail)] true

end LiveMethod

namespace LiveType

/-- The annotation type with these methods; they become its own. -/
def ofMethods (name : String) (methods : List LiveMethod) : LiveType :=
  ⟨name, .annotationType, methods.map fun m ↦ { m with owner := name }, []⟩

/-- The enumeration type with these constants. -/
def enumeration (name : String) (constants : List String) : LiveType :=
  ⟨name, .enumerationType, [], constants⟩

/-- The class with this name. -/
def classType (name : String) : LiveType :=
  ⟨name, .classType, [], []⟩

/-- The methods without parameters, in the order of declaration. -/
def accessors (t : LiveType) : List LiveMethod :=
  t.methods.filter (·.parameters == 0)

/-- The first method of this name without parameters. -/
def accessor? (t : LiveType) (name : String) : Option LiveMethod :=
  t.methods.find? fun m ↦ m.name == name && m.parameters == 0

/-- The place of the first method of this name without parameters. -/
def accessorIdx? (t : LiveType) (name : String) : Option Nat :=
  t.methods.findIdx? fun m ↦ m.name == name && m.parameters == 0

/-- The method at that place is the one that is found by the name. -/
theorem accessor?_eq_bind (t : LiveType) (name : String) :
    t.accessor? name = (t.accessorIdx? name).bind (t.methods[·]?) :=
  List.find?_eq_bind_findIdx?_getElem?

theorem parameters_of_accessor? {t : LiveType} {name : String} {m : LiveMethod}
    (h : t.accessor? name = some m) : m ∈ t.methods ∧ m.name = name ∧ m.parameters = 0 := by
  have hm := List.find?_some h
  simp only [Bool.and_eq_true, beq_iff_eq] at hm
  exact ⟨List.mem_of_find?_eq_some h, hm⟩

/-- The detailed form of a type; its methods and constants are not shown. -/
def detail (t : LiveType) : String :=
  Text.detailed "LoadedType" [("name", Text.quoted t.name), ("kind", t.sort.tag)] true

end LiveType

end Annotations
