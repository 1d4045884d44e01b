/-!
# Why a reading fails

The causes for which a question about an annotation has no answer, and their wording.
-/

namespace Annotations

/-- Why a question about an annotation has no answer. -/
inductive ReadError where
  /-- The annotation type does not declare the accessor. -/
  | accessorNotFound (type accessor : String)
  /-- A value, a type or a constant is not of the expected kind. -/
  | typeMismatch (expected actual : String)
  /-- The accessor is hidden. -/
  | accessDenied (accessor : String)
  /-- The body of the accessor failed with the message `cause`. -/
  | invocationFailure (accessor cause : String)
  /-- An accessor was given no value and has no default. -/
  | missingValue (type accessor : String)
  /-- The enumeration has no constant of this name. -/
  | unknownConstant (enumeration name : String)
  /-- Annotations are nested in more than `limit` levels. -/
  | recursionLimit (limit : Nat)
deriving DecidableEq, Repr, Inhabited

/-- The wording of an error. -/
def ReadError.message : ReadError → String
  | accessorNotFound type accessor => type ++ " does not declare an accessor " ++ accessor
  | typeMismatch expected actual =>
    "Expected a value of type " ++ expected ++ ", but found " ++ actual
  | accessDenied accessor => "Cannot access annotation property " ++ accessor
  | invocationFailure accessor _ => "Error on accessing annotation property " ++ accessor
  | missingValue type accessor =>
    "No value for " ++ type ++ "." ++ accessor ++ " and no default is declared"
  | unknownConstant enumeration name =>
    enumeration ++ " does not declare a constant named " ++ name
  | recursionLimit limit =>
    "Annotation values are nested deeper than " ++ toString limit ++ " levels"

end Annotations
