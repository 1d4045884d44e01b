import Annotations.Description.Draft
import Annotations.Json.Document
import Annotations.Json.Numeral

/-!
# Reading the written form

Reads types, constants, values and annotations from JSON. What is read is stated throughout. An
annotation is built from a draft again, so it is refused where a draft would be; the default values
of a type are taken as they are.

A thing with named parts is an object, in which parts of other names are passed over and no part may
occur twice, or an array of the parts in order, of which the last ones may be missing if the thing
can do without them.

The tree of a text is what a layer reads from it (`Value.readIn`), and that is the standard layer
unless another is named (`Value.read`).
-/

namespace Annotations

/-- Why a text cannot be read. -/
inductive TextError where
  /-- It is no JSON text, or not of the expected form. -/
  | malformed
  /-- It describes an annotation that cannot be built. -/
  | refused (cause : ReadError)
deriving DecidableEq, Repr

/-- Reading from a text. -/
abbrev Parsed := Except TextError

namespace Parsed

/-- What is there, or a malformed text. -/
def ofOption {α : Type} : Option α → Parsed α
  | some a => .ok a
  | none => .error .malformed

/-- Reads a part that must not have been read before. -/
def once {α : Type} (before : Option α) (read : Parsed α) : Parsed (Option α) :=
  match before with
  | some _ => .error .malformed
  | none => read.map some

/-- Reads something that is not there when the text is `null`. -/
def unlessNull {α : Type} (j : Json) (read : Parsed α) : Parsed (Option α) :=
  match j with
  | .null => .ok none
  | _ => read.map some

/-- What can be built, or the cause why it cannot. -/
def built {α : Type} (r : Except ReadError α) : Parsed α :=
  r.mapError .refused

end Parsed

namespace Json

/-- A string. -/
def string? : Json → Option String
  | string s => some s
  | _ => none

/-- A string of one character. -/
def char? : Json → Option Char
  | string s =>
    match s.toList with
    | [c] => some c
    | _ => none
  | _ => none

/-- A truth value. -/
def bool? : Json → Option Bool
  | bool b => some b
  | _ => none

/-- A whole number within bounds. -/
def int? (low high : Int) : Json → Option Int
  | number t => Numeral.inRange? low high t
  | _ => none

/-- An array of strings. -/
def strings? : Json → Option (List String)
  | array vs => vs.mapM string?
  | _ => none

/-- An eight-bit number. -/
def int8? (j : Json) : Option Int8 :=
  (j.int? (-0x80) 0x7f).map Int8.ofInt

/-- A sixteen-bit number. -/
def int16? (j : Json) : Option Int16 :=
  (j.int? (-0x8000) 0x7fff).map Int16.ofInt

/-- A number of thirty-two bits. -/
def int32? (j : Json) : Option Int32 :=
  (j.int? (-0x80000000) 0x7fffffff).map Int32.ofInt

/-- A number of sixty-four bits. -/
def int64? (j : Json) : Option Int64 :=
  (j.int? (-0x8000000000000000) 0x7fffffffffffffff).map Int64.ofInt

/-- A single-precision number. -/
def binary32? : Json → Option Binary32
  | number t =>
    let (negative, x) := Numeral.forSingle t
    Binary32.ofDecimal? negative x
  | _ => none

/-- A double-precision number. -/
def binary64? : Json → Option Binary64
  | number t =>
    let (negative, x) := Numeral.forDouble t
    Binary64.ofDecimal? negative x
  | _ => none

/-- The word of a thing that is nothing but a word: the string, or an object with one member of that
name that is `null`. -/
def word? : Json → Option String
  | string s => some s
  | object [(s, null)] => some s
  | _ => none

end Json

/-- The sort with this word. -/
def TypeSort.ofJson? (j : Json) : Option TypeSort := do
  let w ← j.word?
  [TypeSort.annotationType, .enumerationType, .classType].find? (·.tag == w)

/-- The kind with this written form. -/
def Kind.ofJson? : Json → Option Kind
  | .string w => Category.ofWord? w >>= Category.simpleKind?
  | .object [(w, v)] =>
    match Category.ofWord? w with
    | some .constant => v.string?.map .enumeration
    | some .nested => v.string?.map .nested
    | some .array => (Kind.ofJson? v).map .array
    | some c =>
      match v with
      | .null => c.simpleKind?
      | _ => none
    | none => none
  | _ => none

/-- The parts of a type that have been read. -/
structure TypeParts where
  name : Option String
  sort : Option TypeSort
  accessors : Option (List AccessorDraft)
  constants : Option (List String)

/-- The type with the parts; it can do without accessors and constants. -/
def TypeParts.build (p : TypeParts) : Parsed TypeDecl := do
  let name ← Parsed.ofOption p.name
  let sort ← Parsed.ofOption p.sort
  pure ⟨name, sort, (p.accessors.getD []).map (·.on name), p.constants.getD []⟩

/-- The parts of an accessor that have been read. -/
structure AccessorParts where
  name : Option String
  kind : Option Kind
  default : Option (Option Value)

/-- The accessor with the parts; it can do without a default value. -/
def AccessorParts.build (p : AccessorParts) : Parsed AccessorDraft := do
  let name ← Parsed.ofOption p.name
  let kind ← Parsed.ofOption p.kind
  pure ⟨name, kind, p.default.join⟩

/-- The parts of a constant that have been read. -/
structure ConstantParts where
  type : Option TypeDecl
  name : Option String

/-- The constant with the parts. -/
def ConstantParts.build (p : ConstantParts) : Parsed Constant := do
  let type ← Parsed.ofOption p.type
  let name ← Parsed.ofOption p.name
  pure (.stated type name)

/-- The parts of an annotation that have been read. -/
structure StatedParts where
  type : Option TypeDecl
  values : Option (List (String × Value))

/-- The annotation with the parts. Of two values of one name the later one counts, in the place of
the earlier one. -/
def StatedParts.build (p : StatedParts) : Parsed Stated := do
  let type ← Parsed.ofOption p.type
  let values ← Parsed.ofOption p.values
  Parsed.built (Stated.of type (Entries.ofList values))

mutual

/-- The value with this written form. -/
def Value.ofJson : Json → Parsed Value
  | .object [(w, v)] =>
    match Category.ofWord? w with
    | some .boolean => Parsed.ofOption (v.bool?.map .boolean)
    | some .byte => Parsed.ofOption (v.int8?.map .byte)
    | some .char => Parsed.ofOption (v.char?.map .char)
    | some .short => Parsed.ofOption (v.int16?.map .short)
    | some .int => Parsed.ofOption (v.int32?.map .int)
    | some .long => Parsed.ofOption (v.int64?.map .long)
    | some .float => Parsed.ofOption (v.binary32?.map .float)
    | some .double => Parsed.ofOption (v.binary64?.map .double)
    | some .string => Parsed.ofOption (v.string?.map .string)
    | some .type => do
      let t ← TypeDecl.ofJson v
      pure (.type t)
    | some .constant => do
      let c ← Constant.ofJson v
      pure (.constant c)
    | some .nested => do
      let s ← Stated.ofJson v
      pure (.nested (.stated s))
    | some .array =>
      match v with
      | .array vs => do
        let vs ← valuesOfJson vs
        pure (.array vs)
      | _ => .error .malformed
    | none => .error .malformed
  | _ => .error .malformed

/-- The type with this written form. -/
def TypeDecl.ofJson : Json → Parsed TypeDecl
  | .object members => do
    let parts ← typeMembers ⟨none, none, none, none⟩ members
    parts.build
  | .array [n, s] => do
    let name ← Parsed.ofOption n.string?
    let sort ← Parsed.ofOption (TypeSort.ofJson? s)
    TypeParts.build ⟨name, sort, none, none⟩
  | .array [n, s, as] => do
    let name ← Parsed.ofOption n.string?
    let sort ← Parsed.ofOption (TypeSort.ofJson? s)
    let accessors ← accessorsOfJson as
    TypeParts.build ⟨name, sort, accessors, none⟩
  | .array [n, s, as, cs] => do
    let name ← Parsed.ofOption n.string?
    let sort ← Parsed.ofOption (TypeSort.ofJson? s)
    let accessors ← accessorsOfJson as
    let constants ← Parsed.ofOption cs.strings?
    TypeParts.build ⟨name, sort, accessors, constants⟩
  | _ => .error .malformed

/-- The accessor with this written form. -/
def AccessorDraft.ofJson : Json → Parsed AccessorDraft
  | .object members => do
    let parts ← accessorMembers ⟨none, none, none⟩ members
    parts.build
  | .array [n, k] => do
    let name ← Parsed.ofOption n.string?
    let kind ← Parsed.ofOption (Kind.ofJson? k)
    AccessorParts.build ⟨name, kind, none⟩
  | .array [n, k, d] => do
    let name ← Parsed.ofOption n.string?
    let kind ← Parsed.ofOption (Kind.ofJson? k)
    let default ← Parsed.unlessNull d (Value.ofJson d)
    AccessorParts.build ⟨name, kind, some default⟩
  | _ => .error .malformed

/-- The constant with this written form. -/
def Constant.ofJson : Json → Parsed Constant
  | .object members => do
    let parts ← constantMembers ⟨none, none⟩ members
    parts.build
  | .array [t, n] => do
    let type ← TypeDecl.ofJson t
    let name ← Parsed.ofOption n.string?
    ConstantParts.build ⟨type, name⟩
  | _ => .error .malformed

/-- The annotation with this written form. -/
def Stated.ofJson : Json → Parsed Stated
  | .object members => do
    let parts ← statedMembers ⟨none, none⟩ members
    parts.build
  | .array [t, vs] => do
    let type ← TypeDecl.ofJson t
    let values ← entriesOfJson vs
    StatedParts.build ⟨type, values⟩
  | _ => .error .malformed

/-- The values with these written forms. -/
def valuesOfJson : List Json → Parsed (List Value)
  | [] => pure []
  | v :: vs => do
    let v ← Value.ofJson v
    let vs ← valuesOfJson vs
    pure (v :: vs)

/-- The list of accessors with this written form. -/
def accessorsOfJson : Json → Parsed (List AccessorDraft)
  | .array vs => accessorListOfJson vs
  | _ => .error .malformed

/-- The accessors with these written forms. -/
def accessorListOfJson : List Json → Parsed (List AccessorDraft)
  | [] => pure []
  | v :: vs => do
    let a ← AccessorDraft.ofJson v
    let as ← accessorListOfJson vs
    pure (a :: as)

/-- The named values with this written form. -/
def entriesOfJson : Json → Parsed (List (String × Value))
  | .object members => entryListOfJson members
  | _ => .error .malformed

/-- The named values with these written forms. -/
def entryListOfJson : List (String × Json) → Parsed (List (String × Value))
  | [] => pure []
  | (name, v) :: ms => do
    let v ← Value.ofJson v
    let es ← entryListOfJson ms
    pure ((name, v) :: es)

/-- Reads the parts of a type from the members of an object. -/
def typeMembers (parts : TypeParts) : List (String × Json) → Parsed TypeParts
  | [] => pure parts
  | (key, v) :: ms =>
    match key with
    | "name" => do
      let name ← Parsed.once parts.name (Parsed.ofOption v.string?)
      typeMembers { parts with name := name } ms
    | "kind" => do
      let sort ← Parsed.once parts.sort (Parsed.ofOption (TypeSort.ofJson? v))
      typeMembers { parts with sort := sort } ms
    | "accessors" => do
      let accessors ← Parsed.once parts.accessors (accessorsOfJson v)
      typeMembers { parts with accessors := accessors } ms
    | "constants" => do
      let constants ← Parsed.once parts.constants (Parsed.ofOption v.strings?)
      typeMembers { parts with constants := constants } ms
    | _ => typeMembers parts ms

/-- Reads the parts of an accessor from the members of an object. -/
def accessorMembers (parts : AccessorParts) : List (String × Json) → Parsed AccessorParts
  | [] => pure parts
  | (key, v) :: ms =>
    match key with
    | "name" => do
      let name ← Parsed.once parts.name (Parsed.ofOption v.string?)
      accessorMembers { parts with name := name } ms
    | "kind" => do
      let kind ← Parsed.once parts.kind (Parsed.ofOption (Kind.ofJson? v))
      accessorMembers { parts with kind := kind } ms
    | "default" => do
      let default ← Parsed.once parts.default (Parsed.unlessNull v (Value.ofJson v))
      accessorMembers { parts with default := default } ms
    | _ => accessorMembers parts ms

/-- Reads the parts of a constant from the members of an object. -/
def constantMembers (parts : ConstantParts) : List (String × Json) → Parsed ConstantParts
  | [] => pure parts
  | (key, v) :: ms =>
    match key with
    | "type" => do
      let type ← Parsed.once parts.type (TypeDecl.ofJson v)
      constantMembers { parts with type := type } ms
    | "name" => do
      let name ← Parsed.once parts.name (Parsed.ofOption v.string?)
      constantMembers { parts with name := name } ms
    | _ => constantMembers parts ms

/-- Reads the parts of an annotation from the members of an object. -/
def statedMembers (parts : StatedParts) : List (String × Json) → Parsed StatedParts
  | [] => pure parts
  | (key, v) :: ms =>
    match key with
    | "type" => do
      let type ← Parsed.once parts.type (TypeDecl.ofJson v)
      statedMembers { parts with type := type } ms
    | "values" => do
      let values ← Parsed.once parts.values (entriesOfJson v)
      statedMembers { parts with values := values } ms
    | _ => statedMembers parts ms

end

/-! ### In a layer -/

section

variable (L : Json.Layer) (text : String)

/-- The tree that the layer reads from a text. -/
def Parsed.json : Parsed Json :=
  Parsed.ofOption (L.read? text)

/-- The value that is written in a text of the layer. -/
def Value.readIn : Parsed Value :=
  Parsed.json L text >>= Value.ofJson

/-- The type that is written in a text of the layer. -/
def TypeDecl.readIn : Parsed TypeDecl :=
  Parsed.json L text >>= TypeDecl.ofJson

/-- The constant that is written in a text of the layer. -/
def Constant.readIn : Parsed Constant :=
  Parsed.json L text >>= Constant.ofJson

/-- The annotation that is written in a text of the layer. -/
def Stated.readIn : Parsed Stated :=
  Parsed.json L text >>= Stated.ofJson

end

/-! ### In the standard layer -/

/-- The value that is written. -/
def Value.read (text : String) : Parsed Value :=
  Value.readIn .standard text

/-- The type that is written. -/
def TypeDecl.read (text : String) : Parsed TypeDecl :=
  TypeDecl.readIn .standard text

/-- The constant that is written. -/
def Constant.read (text : String) : Parsed Constant :=
  Constant.readIn .standard text

/-- The annotation that is written. -/
def Stated.read (text : String) : Parsed Stated :=
  Stated.readIn .standard text

end Annotations
