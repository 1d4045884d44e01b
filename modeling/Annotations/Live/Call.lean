import Annotations.Live.Catalog

/-!
# Calling a method

A call runs the body on a receiver, with no regard to visibility. A body of the catalogue wants an
instance of its own class, the other bodies want a record.
-/

namespace Annotations

/-- The failure of a body whose receiver is of another class. -/
def wrongReceiver (expected : String) : Outcome :=
  .error ("Receiver is not a " ++ expected)

/-- What a body of the catalogue gives on a receiver. -/
def BuiltIn.run : BuiltIn → Instance → Outcome
  | markerValue, .marker m => .ok (.int m.value)
  | markerValue, _ => wrongReceiver "Marker"
  | otherValue, .other o => .ok (.int o.value)
  | otherValue, _ => wrongReceiver "Other"
  | sealedLevel, .sealed s => .ok (.int s.level)
  | sealedLevel, _ => wrongReceiver "Sealed"
  | sealedSecret, .sealed s => .ok (.int (s.level * 2))
  | sealedSecret, _ => wrongReceiver "Sealed"
  | brokenValue, .broken _ => .error "value is not available"
  | brokenValue, _ => wrongReceiver "Broken"
  | loopDepth, .loop l => .ok (.int l.depth)
  | loopDepth, _ => wrongReceiver "Loop"
  | loopNext, .loop l => .ok (.object (.loop ⟨l.depth + 1⟩))
  | loopNext, _ => wrongReceiver "Loop"
  | retryAttempts, .retry r => .ok (.int r.attempts)
  | retryBackoff, .retry r => .ok (.constant (.color r.backoff))
  | retryOn, .retry r => .ok (.constants (r.retryOn.map .color))
  | retryTarget, .retry r => .ok (.type r.target)
  | retryExceptions, .retry r => .ok (.types r.exceptions)
  | retryMarker, .retry r => .ok (.object (.marker r.marker))
  | retryMarkers, .retry r => .ok (.objects (r.markers.map .marker))
  | retryLabel, .retry r => .ok (.string r.label)
  | retryWeights, .retry r => .ok (.array (r.weights.map .double))
  | _, _ => wrongReceiver "Retry"

/-- What a record holds under a name. -/
def recordedOutcome (outcomes : List (String × Outcome)) (name : String) : Outcome :=
  (outcomes.lookup name).getD (.error "no such value")

/-- What a body gives on a receiver; `name` is the name of its method. -/
def Body.run (name : String) : Body → Instance → Outcome
  | builtIn b, receiver => b.run receiver
  | fixed outcome, .record _ _ => outcome
  | recorded, .record _ outcomes => recordedOutcome outcomes name
  | _, _ => wrongReceiver "DynInstance"

/-- What a call of the method on a receiver gives. -/
def LiveMethod.call (m : LiveMethod) (receiver : Instance) : Outcome :=
  m.body.run m.name receiver

end Annotations
