import Annotations.Description.Detach

/-!
# Freezing

Before anything is written, every live annotation in it is replaced by its detached form, also those
in the default values of types. Each is detached under the full limit, in the order in which it is
written, and the first failure is passed on. Stated annotations are gone through without a limit.
-/

namespace Annotations

mutual

/-- A value without live annotations. -/
def Value.freeze (limit : Nat) : Value → Eval Value
  | .type t => do
    let t ← t.freeze limit
    pure (.type t)
  | .constant c => do
    let c ← c.freeze limit
    pure (.constant c)
  | .nested d => do
    let s ← d.freeze limit
    pure (.nested (.stated s))
  | .array vs => do
    let vs ← freezeValues limit vs
    pure (.array vs)
  | v => pure v

/-- A type without live annotations in its default values. -/
def TypeDecl.freeze (limit : Nat) : TypeDecl → Eval TypeDecl
  | ⟨name, sort, accessors, constants⟩ => do
    let accessors ← freezeAccessors limit accessors
    pure ⟨name, sort, accessors, constants⟩

/-- An accessor without live annotations in its default value. -/
def Accessor.freeze (limit : Nat) : Accessor → Eval Accessor
  | .stated owner name kind none => pure (.stated owner name kind none)
  | .stated owner name kind (some v) => do
    let v ← v.freeze limit
    pure (.stated owner name kind (some v))
  | .live m => pure (.live m)

/-- A constant without live annotations in its type. -/
def Constant.freeze (limit : Nat) : Constant → Eval Constant
  | .stated t name => do
    let t ← t.freeze limit
    pure (.stated t name)
  | .live c => pure (.live c)

/-- A stated annotation without live annotations in its type and its values. -/
def Stated.freeze (limit : Nat) : Stated → Eval Stated
  | ⟨t, values⟩ => do
    let t ← t.freeze limit
    let values ← freezeEntries limit values
    pure ⟨t, values⟩

/-- The stated annotation that is written for an annotation. -/
def Description.freeze (limit : Nat) : Description → Eval Stated
  | .stated s => s.freeze limit
  | .live l => (Description.live l).detach limit

/-- Freezes values in order. -/
def freezeValues (limit : Nat) : List Value → Eval (List Value)
  | [] => pure []
  | v :: vs => do
    let v ← v.freeze limit
    let vs ← freezeValues limit vs
    pure (v :: vs)

/-- Freezes accessors in order. -/
def freezeAccessors (limit : Nat) : List Accessor → Eval (List Accessor)
  | [] => pure []
  | a :: as => do
    let a ← a.freeze limit
    let as ← freezeAccessors limit as
    pure (a :: as)

/-- Freezes named values in order. -/
def freezeEntries (limit : Nat) : List (String × Value) → Eval (List (String × Value))
  | [] => pure []
  | (name, v) :: es => do
    let v ← v.freeze limit
    let es ← freezeEntries limit es
    pure ((name, v) :: es)

end

end Annotations
