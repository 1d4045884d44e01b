/-!
# The detailed form

A thing by its name and its fields, `Name { field: value, … }`. A thing that does not show all of
its fields ends in two dots.
-/

namespace Annotations.Text

/-- Parts with a separator between them. -/
def separated (separator : String) : List String → String
  | [] => ""
  | [s] => s
  | s :: rest => s ++ separator ++ separated separator rest

@[simp] theorem separated_nil (separator : String) : separated separator [] = "" := rfl

@[simp] theorem separated_singleton (separator s : String) : separated separator [s] = s := rfl

/-- A list of parts in brackets. -/
def bracketed (parts : List String) : String :=
  "[" ++ separated ", " parts ++ "]"

/-- A name and its fields in braces; `more` says that there are others. -/
def detailed (name : String) (fields : List (String × String)) (more : Bool) : String :=
  let shown := fields.map fun field ↦ field.1 ++ ": " ++ field.2
  name ++ " \x7b " ++ separated ", " (if more then shown ++ [".."] else shown) ++ " \x7d"

end Annotations.Text
