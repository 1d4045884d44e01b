import Annotations.Live.Call
import Annotations.Reading

/-!
# Handles

Which accessor is meant is said by a handle: a stated one names the accessor, a live one carries the
method. A handle without default value is all that lookup depends on. On a type, a handle is
resolved to a method (`LiveType.resolve`), and a method is called if it is visible
(`LiveMethod.invoke`).
-/

namespace Annotations

/-- What identifies an accessor, and more: the kind or the method that goes with it. -/
inductive Handle where
  | stated (owner name : String) (kind : Kind)
  | live (method : LiveMethod)

namespace Handle

/-- The name of the type that declares the accessor. -/
def owner : Handle → String
  | stated o _ _ => o
  | live m => m.owner

/-- The accessor's name. -/
def name : Handle → String
  | stated _ n _ => n
  | live m => m.name

/-- The declared kind. -/
def kind : Handle → Kind
  | stated _ _ k => k
  | live m => m.kind

/-- How the accessor is shown. -/
def text (h : Handle) : String :=
  accessorText h.owner h.name

/-- The same accessor: of the same owner and name. -/
def same (h g : Handle) : Bool :=
  h.owner == g.owner && h.name == g.name

theorem same_iff {h g : Handle} : h.same g = true ↔ h.owner = g.owner ∧ h.name = g.name := by
  simp [same]

/-- The digest of an accessor is that of its owner and name. -/
def digest (h : Handle) : UInt64 :=
  Annotations.digest (Digest.textBytes h.owner ++ Digest.textBytes h.name)

theorem digest_eq_of_same {h g : Handle} (e : h.same g = true) : h.digest = g.digest := by
  obtain ⟨o, n⟩ := same_iff.mp e
  simp [digest, o, n]

end Handle

/-- The method that a type has for an accessor. A handle that carries a method without parameters
of a type of this name is taken at its word; for any other the method is found by name. -/
def LiveType.resolve (t : LiveType) (h : Handle) : Except ReadError LiveMethod :=
  let byName :=
    match t.accessor? h.name with
    | some m => .ok m
    | none => .error (.accessorNotFound t.name h.text)
  match h with
  | .live m => if m.owner = t.name ∧ m.parameters = 0 then .ok m else byName
  | .stated .. => byName

/-- Calls a method if it is visible. -/
def LiveMethod.invoke (m : LiveMethod) (receiver : Instance) : Eval Output :=
  match m.visibility with
  | .hidden => throw (.accessDenied m.text)
  | .visible => do
    Eval.record (.ran m)
    match m.call receiver with
    | .ok output => pure output
    | .error cause => throw (.invocationFailure m.text cause)

end Annotations
