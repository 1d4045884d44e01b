import Annotations.Description.Lookup
import Annotations.Binary.Text

/-!
# Showing annotations

An annotation is shown as it would be written in a source text, `@Name(accessor=value, …)`. The
error of an accessor that cannot be read is shown in its place. An annotation deeper than the limit
is cut to `@Name(...)`, so showing always ends in a text.
-/

namespace Annotations

namespace Value

mutual

/-- A value as it is shown, with the showing of nested annotations given. -/
def renderBy (inner : Description → Traced String) : Value → Traced String
  | boolean b => pure (toString b)
  | byte n => pure (toString n)
  | char c => pure (Text.quotedChar c)
  | short n => pure (toString n)
  | int n => pure (toString n)
  | long n => pure (toString n ++ "L")
  | float x => pure (x.decode.shown .single ++ "f")
  | double x => pure (x.decode.shown .double)
  | string s => pure (Text.quoted s)
  | type t => pure (t.name ++ ".class")
  | constant c => pure c.text
  | nested d => inner d
  | array vs => do
    let parts ← renderAllBy inner vs
    pure ("\x7b" ++ Text.separated ", " parts ++ "\x7d")

/-- The values of a list as they are shown. -/
def renderAllBy (inner : Description → Traced String) : List Value → Traced (List String)
  | [] => pure []
  | v :: vs => do
    let part ← renderBy inner v
    let parts ← renderAllBy inner vs
    pure (part :: parts)

end

end Value

namespace Description

/-- What is shown for an accessor: its name and its value, or the error in its place. -/
def renderSlot (renderValue : Value → Traced String) (d : Description) (x : Accessor) :
    Traced String := do
  let shown ←
    match ← (d.get x.handle).attempt with
    | .ok v => renderValue v
    | .error e => pure ("<" ++ e.message ++ ">")
  pure (x.name ++ "=" ++ shown)

/-- An annotation as it is shown, of which `room` levels may be entered. -/
def renderWithin : (room : Nat) → Description → Traced String
  | 0, d => pure ("@" ++ d.typeName ++ "(...)")
  | room + 1, d => do
    let slots ← d.type.accessors.mapM (renderSlot (Value.renderBy (renderWithin room)) d)
    pure ("@" ++ d.typeName ++ "(" ++ Text.separated ", " slots ++ ")")

/-- An annotation as it is shown under a limit. -/
def render (limit : Nat) (d : Description) : Traced String :=
  renderWithin limit d

end Description

/-- A value as it is shown under a limit. -/
def Value.render (limit : Nat) (v : Value) : Traced String :=
  renderBy (Description.renderWithin limit) v

end Annotations
