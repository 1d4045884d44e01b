import Annotations.Description.Lookup

/-!
# Detaching under a depth limit

Detaching evaluates every accessor of an annotation, and of the annotations inside, into a stated
annotation. Nested annotations and constants become stated ones; other values are kept. Levels are
counted as for equality, and the first failure to read is passed on.
-/

namespace Annotations

/-- The stated constant of the same type and name. -/
def Constant.detach (c : Constant) : Constant :=
  .stated c.type c.name

namespace Value

mutual

/-- A value without live parts, with the detaching of nested annotations given. -/
def detachBy (inner : Description → Eval Stated) : Value → Eval Value
  | nested d => do
    let s ← inner d
    pure (nested (.stated s))
  | constant c => pure (constant c.detach)
  | array vs => do
    let vs ← detachAllBy inner vs
    pure (array vs)
  | v => pure v

/-- Detaches the values of a list in order. -/
def detachAllBy (inner : Description → Eval Stated) : List Value → Eval (List Value)
  | [] => pure []
  | v :: vs => do
    let v ← detachBy inner v
    let vs ← detachAllBy inner vs
    pure (v :: vs)

end

end Value

namespace Description

/-- Reads the accessors in order, each by its name and its detached value. -/
def detachOn (detachValue : Value → Eval Value) (d : Description) :
    List Accessor → Eval (List (String × Value))
  | [] => pure []
  | x :: xs => do
    let v ← d.get x.handle
    let v ← detachValue v
    let rest ← detachOn detachValue d xs
    pure ((x.name, v) :: rest)

/-- Detaches an annotation that may enter `room` levels. -/
def detachWithin (limit : Nat) : (room : Nat) → Description → Eval Stated
  | 0, _ => throw (.recursionLimit limit)
  | room + 1, d => do
    let values ← detachOn (Value.detachBy (detachWithin limit room)) d d.type.accessors
    pure ⟨d.type, Entries.ofList values⟩

/-- Detaches an annotation under a limit. -/
def detach (limit : Nat) (d : Description) : Eval Stated :=
  detachWithin limit limit d

end Description

end Annotations
