import Annotations.Description.Equality
import Annotations.Description.Hash
import Annotations.Description.Nest
import Annotations.Description.Prepared
import Annotations.Description.Render
import Annotations.Settings
import Annotations.Written.Read
import Annotations.Written.Write
import Annotations.Proofs.Handles
import Annotations.Proofs.Alike
import Annotations.Proofs.Reach
import Annotations.Proofs.Registry
import Annotations.Proofs.ByName
import Annotations.Proofs.HashSum
import Annotations.Proofs.Namesakes
import Annotations.Proofs.Filled
import Annotations.Proofs.Snapshot
import Annotations.Proofs.Survey
import Annotations.Proofs.Limits
import Annotations.Proofs.Equivalence
import Annotations.Proofs.Grounds
import Annotations.Proofs.Parts
import Annotations.Proofs.Drafts
import Annotations.Proofs.Tokens
import Annotations.Proofs.Trees
import Annotations.Proofs.Layers
import Annotations.Proofs.EntriesInOrder
import Annotations.Proofs.Restate
import Annotations.Proofs.Frozen
import Annotations.Proofs.RoundTrip
import Annotations.Proofs.Reader
import Annotations.Proofs.Kinded
import Annotations.Proofs.Answers
import Annotations.Proofs.Traces
import Annotations.Proofs.Refusal
import Annotations.Proofs.WrittenLimit
import Annotations.Proofs.Domain
import Annotations.Proofs.Settled
import Annotations.Proofs.Shortest
import Annotations.Proofs.Reversed
import Annotations.Proofs.Independent
import Annotations.Proofs.Numbers
import Annotations.Proofs.Determined
import Annotations.Proofs.Inspected
import Annotations.Proofs.Faults
import Annotations.Proofs.Repeated
import Annotations.Proofs.NormalForm
import Annotations.Proofs.Outlines
import Annotations.Proofs.TypedAccess
import Annotations.Proofs.Prepared
import Annotations.Proofs.Encodings
import Annotations.Proofs.DepthLimit
import Annotations.Proofs.Restored
import Annotations.Proofs.KindNames
