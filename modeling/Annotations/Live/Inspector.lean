import Annotations.Value.OfOutput

/-!
# Inspectors

An inspector is how a live annotation is read: it finds the method for an accessor on the
annotation's type, calls it, and makes a value of what the method gave back. The plain inspector
calls visible methods only. A policy makes inspectors that also take notes, refuse accessors, let
them fail, or read one in place of another.

The usual value for an output is `Value.ofOutput`, in which all annotations are live and read with
one inspector: with the one that reads, or with the one that it names for nested annotations. An
inspector may also make any other value of an output. Annotations in it that are to be read with
the inspector itself are left open, and are bound to it in the end (`OpenValue.close`).
-/

namespace Annotations

namespace Inspector

/-- The inspector with one set of rules for all states. -/
def ofRules (r : Rules) : Inspector where
  rules _ := r
  state := 0

/-- Finds the method for an accessor on a type. -/
def resolve (i : Inspector) : LiveType → Handle → Eval LiveMethod :=
  (i.rules i.state).resolve

/-- Calls a method on an instance. -/
def invoke (i : Inspector) : LiveMethod → Instance → Eval Output :=
  (i.rules i.state).invoke

/-- The inspector of the annotations in outputs that are taken as usual. -/
def inner (i : Inspector) : Inspector :=
  (i.rules i.state).nested.getD i

end Inspector

/-! ### Open values -/

mutual

/-- The value, with the annotations in it that were left open bound to the inspector. -/
def OpenValue.close (i : Inspector) : OpenValue → Value
  | .usual o => .ofOutput i.inner o
  | .closed v => v
  | .live o state => .ofInstance ⟨i.rules, state⟩ o
  | .type t => .type (t.close i)
  | .constant t n => .constant (.stated (t.close i) n)
  | .stated t values => .nested (.stated ⟨t.close i, OpenValue.closeEntries i values⟩)
  | .array vs => .array (OpenValue.closeAll i vs)

/-- Closes a list of values. -/
def OpenValue.closeAll (i : Inspector) : List OpenValue → List Value
  | [] => []
  | v :: vs => v.close i :: OpenValue.closeAll i vs

/-- Closes the values of entries. -/
def OpenValue.closeEntries (i : Inspector) : List (String × OpenValue) → List (String × Value)
  | [] => []
  | (n, v) :: es => (n, v.close i) :: OpenValue.closeEntries i es

/-- The declared type, with the annotations in default values bound to the inspector. -/
def OpenType.close (i : Inspector) : OpenType → TypeDecl
  | ⟨n, s, as, cs⟩ => ⟨n, s, OpenAccessor.closeAll i as, cs⟩

/-- Closes a list of accessors. -/
def OpenAccessor.closeAll (i : Inspector) : List OpenAccessor → List Accessor
  | [] => []
  | a :: as => a.close i :: OpenAccessor.closeAll i as

/-- The accessor, with the annotations in its default value bound to the inspector. -/
def OpenAccessor.close (i : Inspector) : OpenAccessor → Accessor
  | .stated o n k none => .stated o n k none
  | .stated o n k (some v) => .stated o n k (some (v.close i))
  | .live m => .live m

end

namespace Inspector

/-- Makes a value of what a method gave back. -/
def normalize (i : Inspector) (o : Output) : Traced Value :=
  OpenValue.close i <$> (i.rules i.state).normalize o

/-! ### The plain inspector -/

/-- The inspector that adds nothing. -/
def plain : Inspector := ofRules
  { resolve := fun t h ↦ Eval.ofExcept (t.resolve h)
    invoke := LiveMethod.invoke
    normalize := fun o ↦ pure (.usual o)
    nested := none }

@[simp] theorem resolve_plain (t : LiveType) (h : Handle) :
    plain.resolve t h = Eval.ofExcept (t.resolve h) := rfl

@[simp] theorem invoke_plain (m : LiveMethod) (o : Instance) : plain.invoke m o = m.invoke o := rfl

@[simp] theorem normalize_plain (o : Output) :
    plain.normalize o = pure (Value.ofOutput plain o) := rfl

end Inspector

/-- The live annotation of an instance that is read plainly. -/
def Description.ofInstance (i : Instance) : Description :=
  .live ⟨i, .plain⟩

/-! ### Policies -/

/-- Rules for reading live annotations, on top of the plain inspector. -/
structure Policy where
  /-- Take a note of every accessor that is resolved and every method that is called. -/
  audited : Bool
  /-- The names of the methods that are refused. -/
  refused : List String
  /-- The names of the methods that fail, with their messages. -/
  failing : List (String × String)
  /-- The names of the accessors that are read in place of others. -/
  aliases : List (String × String)
  /-- Read nested annotations with the plain inspector. -/
  plainNested : Bool

namespace Policy

/-- Takes a note if the policy asks for one. -/
def note (p : Policy) (text : String) : Eval Unit :=
  if p.audited then Eval.record (.noted text) else pure ()

/-- The accessor that is read in place of another. -/
def redirect (p : Policy) (h : Handle) : Handle :=
  match p.aliases.lookup h.name with
  | some name => .stated h.owner name h.kind
  | none => h

/-- The rules of an inspector that keeps to the policy. -/
def rules (p : Policy) : Rules where
  resolve t h := do
    p.note ("resolve " ++ h.text ++ " on " ++ t.name)
    Eval.ofExcept (t.resolve (p.redirect h))
  invoke m receiver := do
    p.note ("invoke " ++ m.text)
    if p.refused.contains m.name then throw (.accessDenied m.text)
    else match p.failing.lookup m.name with
      | some cause => throw (.invocationFailure m.text cause)
      | none => m.invoke receiver
  normalize o := pure (.usual o)
  nested := if p.plainNested then some .plain else none

/-- The inspector that keeps to the policy. -/
def inspector (p : Policy) : Inspector :=
  .ofRules p.rules

@[simp] theorem normalize_inspector (p : Policy) (o : Output) :
    p.inspector.normalize o = pure (Value.ofOutput p.inspector.inner o) := rfl

theorem inner_inspector (p : Policy) :
    p.inspector.inner = if p.plainNested then .plain else p.inspector := by
  show (if p.plainNested then some _ else none : Option Inspector).getD _ = _
  split <;> rfl

end Policy

end Annotations
