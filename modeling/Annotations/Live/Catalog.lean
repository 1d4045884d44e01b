import Annotations.Live.Basic

/-!
# The catalogue

The live types that the library knows by itself: two enumerations, six annotation classes and three
classes. Each color and each priority has a name that finds it again (`Color.ofName?_name`,
`Priority.ofName?_name`).
-/

namespace Annotations

namespace Color

/-- The constant's name. -/
def name : Color → String
  | red => "RED"
  | green => "GREEN"
  | blue => "BLUE"

/-- The constant's name in the detailed form. -/
def detail : Color → String
  | red => "Red"
  | green => "Green"
  | blue => "Blue"

/-- The colors in the order of declaration. -/
def all : List Color := [red, green, blue]

/-- The color with this name. -/
def ofName? (s : String) : Option Color :=
  all.find? (·.name == s)

@[simp] theorem ofName?_name (c : Color) : ofName? c.name = some c := by
  cases c <;> rfl

theorem name_of_ofName? {s : String} {c : Color} (h : ofName? s = some c) : c.name = s := by
  simpa using List.find?_some h

/-- The type of the colors. -/
def liveType : LiveType := .enumeration "com.example.Color" (all.map name)

end Color

namespace Priority

/-- The constant's name. -/
def name : Priority → String
  | low => "LOW"
  | high => "HIGH"

/-- The priorities in the order of declaration. -/
def all : List Priority := [low, high]

/-- The priority with this name. -/
def ofName? (s : String) : Option Priority :=
  all.find? (·.name == s)

@[simp] theorem ofName?_name (p : Priority) : ofName? p.name = some p := by
  cases p <;> rfl

theorem name_of_ofName? {s : String} {p : Priority} (h : ofName? s = some p) : p.name = s := by
  simpa using List.find?_some h

/-- The type of the priorities. -/
def liveType : LiveType := .enumeration "com.example.Priority" (all.map name)

end Priority

namespace LiveConstant

/-- The name of a constant. -/
def name : LiveConstant → String
  | color c => c.name
  | priority p => p.name
  | free _ n => n

/-- The type of a constant. -/
def type : LiveConstant → LiveType
  | color _ => Color.liveType
  | priority _ => Priority.liveType
  | free t _ => t

end LiveConstant

/-! ### Annotation classes -/

/-- A visible accessor of the catalogue. -/
private def builtIn (name : String) (kind : Kind) (b : BuiltIn) : LiveMethod :=
  .accessor name kind (.builtIn b)

/-- The type of the markers. -/
def Marker.liveType : LiveType :=
  .ofMethods "com.example.Marker" [builtIn "value" .int .markerValue]

/-- The type of the other markers. -/
def Other.liveType : LiveType :=
  .ofMethods "com.example.Other" [builtIn "value" .int .otherValue]

/-- The type of the sealed annotations: one accessor is hidden, and one method has a parameter. -/
def Sealed.liveType : LiveType :=
  .ofMethods "com.example.Sealed"
    [builtIn "visible" .int .sealedLevel,
      { builtIn "secret" .int .sealedSecret with visibility := .hidden },
      { builtIn "compute" .int .sealedLevel with parameters := 1 }]

/-- The type of the broken annotations. -/
def Broken.liveType : LiveType :=
  .ofMethods "com.example.Broken" [builtIn "value" .int .brokenValue]

/-- The type of the endless annotations. -/
def Loop.liveType : LiveType :=
  .ofMethods "com.example.Loop"
    [builtIn "depth" .int .loopDepth, builtIn "next" (.nested "com.example.Loop") .loopNext]

/-- The type of the retry annotations. -/
def Retry.liveType : LiveType :=
  let color := Kind.enumeration "com.example.Color"
  let marker := Kind.nested "com.example.Marker"
  .ofMethods "com.example.Retry"
    [builtIn "attempts" .int .retryAttempts,
      builtIn "backoff" color .retryBackoff,
      builtIn "retry_on" (.array color) .retryOn,
      builtIn "target" .type .retryTarget,
      builtIn "exceptions" (.array .type) .retryExceptions,
      builtIn "marker" marker .retryMarker,
      builtIn "markers" (.array marker) .retryMarkers,
      builtIn "label" .string .retryLabel,
      builtIn "weights" (.array .double) .retryWeights]

/-- The type of an instance. -/
def Instance.type : Instance → LiveType
  | marker _ => Marker.liveType
  | other _ => Other.liveType
  | sealed _ => Sealed.liveType
  | broken _ => Broken.liveType
  | loop _ => Loop.liveType
  | retry _ => Retry.liveType
  | record t _ => t

/-! ### Classes -/

/-- The class of time limits that passed. -/
def timeoutException : LiveType := .classType "java.util.concurrent.TimeoutException"

/-- The class of calls at the wrong time. -/
def illegalState : LiveType := .classType "java.lang.IllegalStateException"

/-- The class of things that can be run. -/
def runnable : LiveType := .classType "java.lang.Runnable"

/-- The classes of the catalogue. -/
def knownClasses : List LiveType := [timeoutException, illegalState, runnable]

/-- The retry annotation that others are made from by changing fields. -/
def Retry.default : Retry where
  attempts := 5
  backoff := .green
  retryOn := [.blue, .red]
  target := runnable
  exceptions := [timeoutException, illegalState]
  marker := ⟨7⟩
  markers := [⟨1⟩, ⟨2⟩]
  label := "network"
  weights := [⟨0x3fe0000000000000⟩, ⟨0x3ff8000000000000⟩]

end Annotations
