import Annotations.Live.Catalog
import Annotations.Binary.Text

/-!
# The detailed form of instances

Instances of the catalogue by their class and fields.
-/

namespace Annotations

/-- The detailed form of a marker. -/
def Marker.detail (m : Marker) : String :=
  Text.detailed "Marker" [("value", toString m.value)] false

/-- The detailed form of a retry annotation. -/
def Retry.detail (r : Retry) : String :=
  Text.detailed "Retry"
    [("attempts", toString r.attempts),
      ("backoff", r.backoff.detail),
      ("retry_on", Text.bracketed (r.retryOn.map Color.detail)),
      ("target", r.target.detail),
      ("exceptions", Text.bracketed (r.exceptions.map LiveType.detail)),
      ("marker", r.marker.detail),
      ("markers", Text.bracketed (r.markers.map Marker.detail)),
      ("label", Text.quoted r.label),
      ("weights", Text.bracketed (r.weights.map fun x ↦ x.decode.shown .double))] false

end Annotations
