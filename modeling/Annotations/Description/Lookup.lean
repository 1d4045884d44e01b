import Annotations.Live.Inspector
import Annotations.Value.Target

/-!
# Reading the values of an annotation

Every question about an annotation comes down to asking it for an accessor (`Description.get`). A
stated annotation answers from its values; a live one asks its inspector each time. An accessor is
asked for by a handle or by its name, and the answer is taken as it is, checked against a kind, or
read as a target.
-/

namespace Annotations

/-- The value of an accessor; the annotation's type has to declare it. -/
def Stated.get (s : Stated) (h : Handle) : Except ReadError Value :=
  let unknown := .error (.accessorNotFound s.type.name h.text)
  if s.type.declares h then
    match s.values.lookup h.name with
    | some v => .ok v
    | none => unknown
  else unknown

/-- The value of an accessor, read from the object; the object's type has to own it. -/
def Live.get (l : Live) (h : Handle) : Eval Value :=
  let t := l.object.type
  if h.owner = t.name then do
    Eval.record (.asked t.name h.text)
    let m ← l.inspector.resolve t h
    let o ← l.inspector.invoke m l.object
    Eval.ofTraced (l.inspector.normalize o)
  else throw (.accessorNotFound t.name h.text)

namespace Description

/-- The value of an accessor. -/
def get : Description → Handle → Eval Value
  | stated s, h => Eval.ofExcept (s.get h)
  | live l, h => l.get h

/-- The value of an accessor, read as a target. -/
def getAs (d : Description) (h : Handle) (t : Target) : Eval t.Carrier := do
  let v ← d.get h
  Eval.ofExcept (t.read v)

/-- The value of an accessor, if it conforms to a kind. -/
def getOfKind (d : Description) (h : Handle) (k : Kind) : Eval Value := do
  let v ← d.get h
  Eval.ofExcept (v.checked k)

/-- The value of the accessor that the annotation's type declares under a name. -/
def named (d : Description) (name : String) : Eval Value :=
  match d.type.accessor? name with
  | some accessor => d.get accessor.handle
  | none => throw (.accessorNotFound d.typeName name)

/-- The value of the accessor with a name, read as a target. -/
def namedAs (d : Description) (name : String) (t : Target) : Eval t.Carrier := do
  let v ← d.named name
  Eval.ofExcept (t.read v)

@[simp] theorem get_stated (s : Stated) (h : Handle) :
    (stated s).get h = Eval.ofExcept (s.get h) := rfl

@[simp] theorem get_live (l : Live) (h : Handle) : (live l).get h = l.get h := rfl

end Description

theorem Stated.get_eq_ok_iff {s : Stated} {h : Handle} {v : Value} :
    s.get h = .ok v ↔ s.type.declares h = true ∧ s.values.lookup h.name = some v := by
  unfold Stated.get
  cases s.type.declares h <;> cases s.values.lookup h.name <;> simp

end Annotations
