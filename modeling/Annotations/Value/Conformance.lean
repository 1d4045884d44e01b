import Annotations.Value.Basic

/-!
# Values and kinds

Whether a value may be given by an accessor of a kind (`Value.conforms`), and the name that messages
show for the kind of a value (`Value.kindName`). Every element of an array has to conform, while the
name of an array's kind is taken from its first element alone; an empty array conforms to the arrays
of every kind.
-/

namespace Annotations.Value

/-- Whether an accessor of the kind may give the value. -/
def conforms : Kind → Value → Bool
  | .boolean, boolean _ => true
  | .byte, byte _ => true
  | .char, char _ => true
  | .short, short _ => true
  | .int, int _ => true
  | .long, long _ => true
  | .float, float _ => true
  | .double, double _ => true
  | .string, string _ => true
  | .type, type _ => true
  | .enumeration n, constant c => c.typeName == n
  | .nested n, nested d => d.typeName == n
  | .array k, array vs => vs.all (conforms k)
  | _, _ => false

/-- The name of the kind of a value. -/
def kindName : Value → String
  | boolean _ => Kind.boolean.name
  | byte _ => Kind.byte.name
  | char _ => Kind.char.name
  | short _ => Kind.short.name
  | int _ => Kind.int.name
  | long _ => Kind.long.name
  | float _ => Kind.float.name
  | double _ => Kind.double.name
  | string _ => Kind.string.name
  | type _ => Kind.type.name
  | constant c => c.typeName
  | nested d => d.typeName
  | array [] => "array"
  | array (v :: _) => v.kindName ++ "[]"

@[simp] theorem conforms_array (k : Kind) (vs : List Value) :
    (array vs).conforms (.array k) = vs.all (conforms k) := rfl

@[simp] theorem kindName_array_nil : (array []).kindName = "array" := rfl

@[simp] theorem kindName_array_cons (v : Value) (vs : List Value) :
    (array (v :: vs)).kindName = v.kindName ++ "[]" := rfl

/-- Refuses a value that does not conform to the kind. -/
def checked (k : Kind) (v : Value) : Except ReadError Value :=
  if v.conforms k then .ok v else .error (.typeMismatch k.name v.kindName)

theorem checked_eq_ok_iff {k : Kind} {v w : Value} :
    checked k v = .ok w ↔ v.conforms k = true ∧ v = w := by
  unfold checked
  split <;> simp_all

end Annotations.Value
