import Annotations.Description.Lookup

/-!
# Equality under a depth limit

Two annotations are equal when their types have the same name and declare the same accessors, and
each accessor of the left one gives equal values on both sides. How the two are represented does not
matter. Floating-point numbers are equal when their bits are.

Only annotations count as levels, arrays do not. `room` is the number of levels that may still be
entered; with none left, the comparison fails and reports the `limit` that it was started with. A
failure to read either side is passed on. The comparison stops at the first difference.
-/

namespace Annotations

/-- Both types declare the same accessors. -/
def TypeDecl.sameAccessors (t u : TypeDecl) : Bool :=
  t.accessors.length == u.accessors.length && t.accessors.all fun a ↦ u.declares a.handle

/-- Types that annotations have to agree in before their values are compared. -/
def TypeDecl.comparable (t u : TypeDecl) : Bool :=
  t.name == u.name && t.sameAccessors u

namespace Value

mutual

/-- Equality of values, with that of nested annotations given. -/
def equalBy (inner : Description → Description → Eval Bool) : Value → Value → Eval Bool
  | boolean x, boolean y => pure (x == y)
  | byte x, byte y => pure (x == y)
  | char x, char y => pure (x == y)
  | short x, short y => pure (x == y)
  | int x, int y => pure (x == y)
  | long x, long y => pure (x == y)
  | float x, float y => pure (decide (x = y))
  | double x, double y => pure (decide (x = y))
  | string x, string y => pure (x == y)
  | type x, type y => pure (x.name == y.name)
  | constant x, constant y => pure (x.same y)
  | nested x, nested y => inner x y
  | array xs, array ys =>
    if xs.length = ys.length then allEqualBy inner xs ys else pure false
  | _, _ => pure false

/-- Equality of lists of the same length, element by element. -/
def allEqualBy (inner : Description → Description → Eval Bool) : List Value → List Value → Eval Bool
  | x :: xs, y :: ys => do
    if ← equalBy inner x y then allEqualBy inner xs ys else pure false
  | _, _ => pure true

end

end Value

namespace Description

/-- Both annotations give equal values for the accessors. -/
def agreeOn (eqv : Value → Value → Eval Bool) (l r : Description) : List Accessor → Eval Bool
  | [] => pure true
  | a :: as => do
    let x ← l.get a.handle
    let y ← r.get a.handle
    if ← eqv x y then agreeOn eqv l r as else pure false

/-- Equality of annotations that may enter `room` levels. -/
def equalWithin (limit : Nat) : (room : Nat) → Description → Description → Eval Bool
  | 0, _, _ => throw (.recursionLimit limit)
  | room + 1, l, r =>
    if l.type.comparable r.type then
      agreeOn (Value.equalBy (equalWithin limit room)) l r l.type.accessors
    else pure false

/-- Equality of annotations under a limit. -/
def equal (limit : Nat) (l r : Description) : Eval Bool :=
  equalWithin limit limit l r

end Description

/-- Equality of values under a limit. -/
def Value.equal (limit : Nat) (x y : Value) : Eval Bool :=
  equalBy (Description.equalWithin limit limit) x y

end Annotations
