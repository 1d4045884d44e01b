import Annotations.Value.Basic

/-!
# Outputs as values

The value for what a method body gives back. Lists of types, of constants and of annotations become
arrays; annotations become live ones that are read with the given inspector.
-/

namespace Annotations.Value

/-- The live annotation of an instance, read with the inspector. -/
def ofInstance (i : Inspector) (o : Instance) : Value :=
  nested (.live ⟨o, i⟩)

mutual

/-- The value for an output; annotations in it are read with the inspector. -/
def ofOutput (i : Inspector) : Output → Value
  | .boolean b => boolean b
  | .byte n => byte n
  | .char c => char c
  | .short n => short n
  | .int n => int n
  | .long n => long n
  | .float x => float x
  | .double x => double x
  | .string s => string s
  | .type t => type t.describe
  | .types ts => array (ts.map fun t ↦ type t.describe)
  | .constant c => constant (.live c)
  | .constants cs => array (cs.map fun c ↦ constant (.live c))
  | .object o => ofInstance i o
  | .objects os => array (os.map (ofInstance i))
  | .array os => array (ofOutputs i os)

/-- The values for a list of outputs. -/
def ofOutputs (i : Inspector) : List Output → List Value
  | [] => []
  | o :: os => ofOutput i o :: ofOutputs i os

end

theorem ofOutputs_eq_map (i : Inspector) (os : List Output) :
    ofOutputs i os = os.map (ofOutput i) := by
  induction os with
  | nil => rfl
  | cons o os ih => simp [ofOutputs, ih]

end Annotations.Value

namespace Annotations

/-- The word for the category of an output. -/
def Output.tag : Output → String
  | boolean _ => "Boolean"
  | byte _ => "Byte"
  | char _ => "Char"
  | short _ => "Short"
  | int _ => "Int"
  | long _ => "Long"
  | float _ => "Float"
  | double _ => "Double"
  | string _ => "String"
  | type _ => "Type"
  | types _ => "Types"
  | constant _ => "Constant"
  | constants _ => "Constants"
  | object _ => "Annotation"
  | objects _ => "Annotations"
  | array _ => "Array"

end Annotations
