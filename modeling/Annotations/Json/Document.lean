import Annotations.Binary.Text
import Annotations.Json.Reader
import Annotations.Json.Writer

/-!
# Documents

A document is what is given to be printed as JSON. It differs from the tree of a text (`Json`) in
its numbers: they are whole numbers and floating-point numbers, and have no text yet. A whole number
is printed in decimal digits, a floating-point number by its shortest text, or as `null` if it is
not finite (`Doc.json`, `Doc.write`).

How documents are printed and texts are read is the matter of a layer of its own (`Json.Layer`).
There is one in use, the standard layer; but what is written and read is the same for any other, and
little is needed of it: that documents without floating-point numbers are read back
(`Json.Layer.ReadsBack`), and that finite numbers are printed distinctly
(`Json.Layer.TellsApart`).
-/

namespace Annotations

/-- What is given to be printed. -/
inductive Doc where
  | null
  | bool (b : Bool)
  | int (n : Int)
  | single (x : Binary32)
  | double (x : Binary64)
  | string (s : String)
  | array (elements : List Doc)
  | object (members : List (String × Doc))

/-- The tree of a number: its text, or `null`. -/
def numberJson : Option String → Json
  | some text => .number text
  | none => .null

namespace Doc

mutual

/-- The tree of a document. -/
def json : Doc → Json
  | null => .null
  | bool b => .bool b
  | int n => .int n
  | single x => numberJson (x.decode.written? .single)
  | double x => numberJson (x.decode.written? .double)
  | string s => .string s
  | array ds => .array (elementsJson ds)
  | object ms => .object (membersJson ms)

/-- The trees of the elements of an array. -/
def elementsJson : List Doc → List Json
  | [] => []
  | d :: ds => d.json :: elementsJson ds

/-- The trees of the members of an object. -/
def membersJson : List (String × Doc) → List (String × Json)
  | [] => []
  | (name, d) :: ms => (name, d.json) :: membersJson ms

end

/-- The text of a document. -/
def write (d : Doc) : String :=
  d.json.write

/-- There is no floating-point number in the document. -/
inductive NoFloats : Doc → Prop
  | null : NoFloats .null
  | bool (b : Bool) : NoFloats (.bool b)
  | int (n : Int) : NoFloats (.int n)
  | string (s : String) : NoFloats (.string s)
  | array {ds : List Doc} (elements : ∀ d ∈ ds, NoFloats d) : NoFloats (.array ds)
  | object {ms : List (String × Doc)} (members : ∀ m ∈ ms, NoFloats m.2) : NoFloats (.object ms)

theorem elementsJson_eq_map (ds : List Doc) : elementsJson ds = ds.map json := by
  induction ds with
  | nil => rfl
  | cons d ds ih => rw [elementsJson, ih, List.map_cons]

theorem membersJson_eq_map (ms : List (String × Doc)) :
    membersJson ms = ms.map fun m ↦ (m.1, m.2.json) := by
  induction ms with
  | nil => rfl
  | cons m ms ih => rw [membersJson, ih, List.map_cons]

theorem membersJson_append (ms ns : List (String × Doc)) :
    membersJson (ms ++ ns) = membersJson ms ++ membersJson ns := by
  simp only [membersJson_eq_map, List.map_append]

end Doc

namespace Json

/-- How documents are printed and how texts are read. -/
structure Layer where
  print : Doc → String
  /-- The tree of a text; numbers are kept as they are written. -/
  read? : String → Option Json
  /-- The documents that are not nested too deeply to be read. -/
  fits : Doc → Prop

namespace Layer

/-- The layer in use. It reads texts however deeply they are nested. -/
def standard : Layer where
  print := Doc.write
  read? := Json.read?
  fits _ := True

/-- The layer reads back what it prints: documents of truth values, whole numbers, strings, arrays
and objects. -/
def ReadsBack (L : Layer) : Prop :=
  ∀ d : Doc, d.NoFloats → L.fits d → L.read? (L.print d) = some d.json

/-- The texts of the layer tell apart what is not the same. Of a number, only those that are finite
are told apart from all others of the precision. -/
structure TellsApart (L : Layer) : Prop where
  bool : ∀ {b c : Bool}, L.print (.bool b) = L.print (.bool c) → b = c
  int : ∀ {m n : Int}, L.print (.int m) = L.print (.int n) → m = n
  single : ∀ {x y : Binary32}, x.decode.IsFinite → L.print (.single x) = L.print (.single y) → x = y
  double : ∀ {x y : Binary64}, x.decode.IsFinite → L.print (.double x) = L.print (.double y) → x = y
  string : ∀ {s t : String}, L.print (.string s) = L.print (.string t) → s = t
  array : ∀ {ds es : List Doc}, L.print (.array ds) = L.print (.array es) →
    ds.map L.print = es.map L.print
  object : ∀ {ms ns : List (String × Doc)}, L.print (.object ms) = L.print (.object ns) →
    ms.map (fun m ↦ (m.1, L.print m.2)) = ns.map fun m ↦ (m.1, L.print m.2)

end Layer

end Json

end Annotations
