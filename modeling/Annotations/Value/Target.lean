import Annotations.Value.Conformance

/-!
# Typed values

A target is a type that values can be read as: one of the scalars, types, constants, annotations,
any value, or lists of a target. `Target.read?` and `Target.toValue` go back and forth.
-/

namespace Annotations

/-- What a value can be read as. -/
inductive Target where
  | boolean
  | byte
  | char
  | short
  | int
  | long
  | float
  | double
  | string
  | type
  | constant
  | nested
  | any
  | list (element : Target)
deriving DecidableEq, Repr

namespace Target

/-- The things that a value is read as. -/
def Carrier : Target → Type
  | boolean => Bool
  | byte => Int8
  | char => Char
  | short => Int16
  | int => Int32
  | long => Int64
  | float => Binary32
  | double => Binary64
  | string => String
  | type => TypeDecl
  | constant => Constant
  | nested => Description
  | any => Value
  | list t => List t.Carrier

/-- The name of the target in messages. -/
def expected : Target → String
  | boolean => Kind.boolean.name
  | byte => Kind.byte.name
  | char => Kind.char.name
  | short => Kind.short.name
  | int => Kind.int.name
  | long => Kind.long.name
  | float => Kind.float.name
  | double => Kind.double.name
  | string => Kind.string.name
  | type => Kind.type.name
  | constant => "enumeration"
  | nested => "annotation"
  | any => "any"
  | list t => t.expected ++ "[]"

/-- The kind with the same values, where there is one. -/
def kind? : Target → Option Kind
  | boolean => some .boolean
  | byte => some .byte
  | char => some .char
  | short => some .short
  | int => some .int
  | long => some .long
  | float => some .float
  | double => some .double
  | string => some .string
  | type => some .type
  | list t => t.kind?.map .array
  | _ => none

/-- The value read as the target. -/
def read? : (t : Target) → Value → Option t.Carrier
  | boolean, .boolean b => some b
  | byte, .byte n => some n
  | char, .char c => some c
  | short, .short n => some n
  | int, .int n => some n
  | long, .long n => some n
  | float, .float x => some x
  | double, .double x => some x
  | string, .string s => some s
  | type, .type t => some t
  | constant, .constant c => some c
  | nested, .nested d => some d
  | any, v => some v
  | list t, .array vs => vs.mapM (read? t)
  | _, _ => none

/-- The value that is read as the given thing. -/
def toValue : (t : Target) → t.Carrier → Value
  | boolean, b => .boolean b
  | byte, n => .byte n
  | char, c => .char c
  | short, n => .short n
  | int, n => .int n
  | long, n => .long n
  | float, x => .float x
  | double, x => .double x
  | string, s => .string s
  | type, t => .type t
  | constant, c => .constant c
  | nested, d => .nested d
  | any, v => v
  | list t, xs => .array (xs.map (toValue t))

/-- The value read as the target, or the two names that do not go together. -/
def read (t : Target) (v : Value) : Except ReadError t.Carrier :=
  match t.read? v with
  | some x => .ok x
  | none => .error (.typeMismatch t.expected v.kindName)

end Target

end Annotations
