import Annotations.Json.Document
import Annotations.Written.Freeze

/-!
# The written form

Types, constants, values and annotations as documents. A value is an object with one member, named
after its category. Of a type the lists of accessors and constants are left out when they are empty,
of an accessor the default value when there is none.

What is written has been frozen before (`Value.freeze`), so no live annotation is left; in a
document it would stand as `null`. A document is then printed by a layer (`Value.writeIn`), and that
is the standard one unless another is named (`Value.write`).
-/

namespace Annotations

/-- A thing of a category: an object with one member. -/
def Doc.tagged (c : Category) (d : Doc) : Doc :=
  .object [(c.word, d)]

/-- A thing of a category, as a tree. -/
def Json.tagged (c : Category) (j : Json) : Json :=
  .object [(c.word, j)]

theorem Doc.json_tagged (c : Category) (d : Doc) : (tagged c d).json = .tagged c d.json := rfl

/-- The written form of a kind: its word, or the word with what the kind holds. -/
def Kind.doc : Kind → Doc
  | .enumeration n => .tagged .constant (.string n)
  | .nested n => .tagged .nested (.string n)
  | .array k => .tagged .array k.doc
  | k => .string k.word

/-- The tree of a kind. -/
def Kind.json (k : Kind) : Json :=
  k.doc.json

/-- A member that is left out when there is nothing in it. -/
def optionalList (name : String) : List Doc → List (String × Doc)
  | [] => []
  | ds => [(name, .array ds)]

/-- The written form of a type with the given parts. -/
def typeDoc (name : String) (sort : TypeSort) (accessors : List Doc) (constants : List String) :
    Doc :=
  .object (("name", .string name) :: ("kind", .string sort.tag) ::
    optionalList "accessors" accessors ++ optionalList "constants" (constants.map .string))

/-- The written form of a live method: that of an accessor without default value. -/
def LiveMethod.doc (m : LiveMethod) : Doc :=
  .object [("name", .string m.name), ("kind", m.kind.doc)]

/-- The written form of a live type: that of the type it describes. -/
def LiveType.doc (t : LiveType) : Doc :=
  typeDoc t.name t.sort (t.accessors.map LiveMethod.doc) t.constants

mutual

/-- The written form of a value. -/
def Value.doc : Value → Doc
  | .boolean b => .tagged .boolean (.bool b)
  | .byte n => .tagged .byte (.int n.toInt)
  | .char c => .tagged .char (.string c.toString)
  | .short n => .tagged .short (.int n.toInt)
  | .int n => .tagged .int (.int n.toInt)
  | .long n => .tagged .long (.int n.toInt)
  | .float x => .tagged .float (.single x)
  | .double x => .tagged .double (.double x)
  | .string s => .tagged .string (.string s)
  | .type t => .tagged .type t.doc
  | .constant c => .tagged .constant c.doc
  | .nested d => .tagged .nested d.doc
  | .array vs => .tagged .array (.array (valueDocs vs))

/-- The written form of a type. -/
def TypeDecl.doc : TypeDecl → Doc
  | ⟨name, sort, accessors, constants⟩ => typeDoc name sort (accessorDocs accessors) constants

/-- The written form of an accessor. -/
def Accessor.doc : Accessor → Doc
  | .stated _ name kind none => .object [("name", .string name), ("kind", kind.doc)]
  | .stated _ name kind (some v) =>
    .object [("name", .string name), ("kind", kind.doc), ("default", v.doc)]
  | .live m => m.doc

/-- The written form of a constant. -/
def Constant.doc : Constant → Doc
  | .stated t name => .object [("type", t.doc), ("name", .string name)]
  | .live c => .object [("type", c.type.doc), ("name", .string c.name)]

/-- The written form of a stated annotation. -/
def Stated.doc : Stated → Doc
  | ⟨t, values⟩ => .object [("type", t.doc), ("values", .object (entryDocs values))]

/-- The written form of a frozen annotation. -/
def Description.doc : Description → Doc
  | .stated s => s.doc
  | .live _ => .null

/-- The written forms of values. -/
def valueDocs : List Value → List Doc
  | [] => []
  | v :: vs => v.doc :: valueDocs vs

/-- The written forms of accessors. -/
def accessorDocs : List Accessor → List Doc
  | [] => []
  | a :: as => a.doc :: accessorDocs as

/-- The written forms of named values. -/
def entryDocs : List (String × Value) → List (String × Doc)
  | [] => []
  | (name, v) :: es => (name, v.doc) :: entryDocs es

end

/-- A live type is written as the type it describes. -/
theorem doc_describe (t : LiveType) : t.describe.doc = t.doc := by
  have : ∀ ms : List LiveMethod, accessorDocs (ms.map .live) = ms.map LiveMethod.doc := by
    intro ms
    induction ms with
    | nil => rfl
    | cons m ms ih => simp [accessorDocs, Accessor.doc, ih]
  simp [LiveType.describe, TypeDecl.doc, LiveType.doc, this]

/-! ### In a layer -/

section

variable (L : Json.Layer) (limit : Nat)

/-- The text of a value under a limit, as the layer prints it. -/
def Value.writeIn (v : Value) : Eval String := do
  let v ← v.freeze limit
  pure (L.print v.doc)

/-- The text of a type under a limit, as the layer prints it. -/
def TypeDecl.writeIn (t : TypeDecl) : Eval String := do
  let t ← t.freeze limit
  pure (L.print t.doc)

/-- The text of a constant under a limit, as the layer prints it. -/
def Constant.writeIn (c : Constant) : Eval String := do
  let c ← c.freeze limit
  pure (L.print c.doc)

/-- The text of an annotation under a limit, as the layer prints it. -/
def Description.writeIn (d : Description) : Eval String := do
  let s ← d.freeze limit
  pure (L.print s.doc)

end

/-! ### In the standard layer -/

/-- The text of a value under a limit. -/
def Value.write (limit : Nat) (v : Value) : Eval String :=
  v.writeIn .standard limit

/-- The text of a type under a limit. -/
def TypeDecl.write (limit : Nat) (t : TypeDecl) : Eval String :=
  t.writeIn .standard limit

/-- The text of a constant under a limit. -/
def Constant.write (limit : Nat) (c : Constant) : Eval String :=
  c.writeIn .standard limit

/-- The text of an annotation under a limit. -/
def Description.write (limit : Nat) (d : Description) : Eval String :=
  d.writeIn .standard limit

end Annotations
