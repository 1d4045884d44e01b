import Annotations.Digest
import Annotations.Text.Quoted

/-!
# Kinds

What an accessor is declared to give (`Kind`), and the three sorts of declared types (`TypeSort`). A
kind has a name, which messages show, and is of a category (`Category`), whose word the written and
the detailed form use. The words tell the categories apart (`Category.ofWord?_word`).
-/

namespace Annotations

/-- The sort of a declared type. -/
inductive TypeSort where
  | annotationType
  | enumerationType
  | classType
deriving DecidableEq, Repr, Inhabited

/-- The declared return kind of an accessor. -/
inductive Kind where
  | boolean
  | byte
  | char
  | short
  | int
  | long
  | float
  | double
  | string
  /-- A reference to a type. -/
  | type
  /-- A constant of the enumeration type with this name. -/
  | enumeration (name : String)
  /-- A nested annotation of the annotation type with this name. -/
  | nested (name : String)
  | array (element : Kind)
deriving DecidableEq, Repr, Inhabited

/-- The word for a sort in the written and the detailed form. -/
def TypeSort.tag : TypeSort → String
  | .annotationType => "Annotation"
  | .enumerationType => "Enumeration"
  | .classType => "Class"

/-- The categories of kinds and of values. -/
inductive Category where
  | boolean
  | byte
  | char
  | short
  | int
  | long
  | float
  | double
  | string
  | type
  | constant
  | nested
  | array
deriving DecidableEq, Repr, Inhabited

namespace Category

/-- The word for a category in the written and the detailed form. -/
def word : Category → String
  | boolean => "Boolean"
  | byte => "Byte"
  | char => "Char"
  | short => "Short"
  | int => "Int"
  | long => "Long"
  | float => "Float"
  | double => "Double"
  | string => "String"
  | type => "Type"
  | constant => "Enumeration"
  | nested => "Annotation"
  | array => "Array"

/-- The categories in their order. -/
def all : List Category :=
  [boolean, byte, char, short, int, long, float, double, string, type, constant, nested, array]

/-- The category with a word. -/
def ofWord? (w : String) : Option Category :=
  all.find? (·.word == w)

@[simp] theorem ofWord?_word (c : Category) : ofWord? c.word = some c := by
  cases c <;> rfl

theorem word_of_ofWord? {w : String} {c : Category} (h : ofWord? w = some c) : c.word = w := by
  simpa using List.find?_some h

/-- The kind that is nothing but its category. -/
def simpleKind? : Category → Option Kind
  | boolean => some .boolean
  | byte => some .byte
  | char => some .char
  | short => some .short
  | int => some .int
  | long => some .long
  | float => some .float
  | double => some .double
  | string => some .string
  | type => some .type
  | _ => none

end Category

namespace Kind

/-- The name that messages show: enumerations and annotations go by the name of their type. -/
def name : Kind → String
  | boolean => "boolean"
  | byte => "byte"
  | char => "char"
  | short => "short"
  | int => "int"
  | long => "long"
  | float => "float"
  | double => "double"
  | string => "String"
  | type => "type"
  | enumeration n => n
  | nested n => n
  | array k => k.name ++ "[]"

/-- The category of a kind. -/
def category : Kind → Category
  | boolean => .boolean
  | byte => .byte
  | char => .char
  | short => .short
  | int => .int
  | long => .long
  | float => .float
  | double => .double
  | string => .string
  | type => .type
  | enumeration _ => .constant
  | nested _ => .nested
  | array _ => .array

/-- The word for a kind's category. -/
def word (k : Kind) : String := k.category.word

/-- The word of a kind, with what the kind holds in parentheses. -/
def detail : Kind → String
  | enumeration n => word (enumeration n) ++ "(" ++ Text.quoted n ++ ")"
  | nested n => word (nested n) ++ "(" ++ Text.quoted n ++ ")"
  | array k => word (array k) ++ "(" ++ k.detail ++ ")"
  | k => k.word

/-- The position of a kind's category, in eight bytes. -/
def positionBytes (k : Kind) : List UInt8 :=
  Digest.bytes 8 (UInt64.ofNat (Category.all.idxOf k.category))

/-- The bytes that a kind is digested by: the position of its category, then what it holds. -/
def digestBytes : Kind → List UInt8
  | enumeration n => positionBytes (enumeration n) ++ Digest.textBytes n
  | nested n => positionBytes (nested n) ++ Digest.textBytes n
  | array k => positionBytes (array k) ++ k.digestBytes
  | k => k.positionBytes

/-- `k[]…[]` with `depth` pairs of brackets. -/
def arrayOf (k : Kind) : (depth : Nat) → Kind
  | 0 => k
  | n + 1 => array (arrayOf k n)

@[simp] theorem name_array (k : Kind) : (array k).name = k.name ++ "[]" := rfl

@[simp] theorem name_enumeration (n : String) : (enumeration n).name = n := rfl

@[simp] theorem name_nested (n : String) : (nested n).name = n := rfl

end Kind

end Annotations
