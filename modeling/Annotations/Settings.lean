import Annotations.Text.Blank

/-!
# Settings

The depth limit comes from the environment: a positive number below `2 ^ 64`, in decimal digits with
or without a plus sign before them and with or without blanks around them. Without a setting the
limit is sixty-four; and so it is if the setting cannot be used.
-/

namespace Annotations

/-- Why a setting cannot be used. -/
inductive SettingError where
  | invalidNumber (key value : String)
  | outOfRange (key : String) (value : Nat)
deriving DecidableEq, Repr

/-- The wording of an error. -/
def SettingError.message : SettingError → String
  | invalidNumber key value =>
    "Invalid value for " ++ key ++ ": " ++ value ++ ". Expected a non-negative integer"
  | outOfRange key value =>
    "Invalid value for " ++ key ++ ": " ++ toString value ++ ". Must be at least 1"

/-- The settings that a program was started with, by their names. -/
abbrev Environment := String → Option String

namespace Environment

/-- The environment with the given settings, of which the last one of a name counts. -/
def ofList (settings : List (String × String)) : Environment :=
  fun key ↦ settings.reverse.lookup key

/-- The number with the digits, which may have a plus sign before them. -/
def numeral? (s : List Char) : Option Nat :=
  let digits := if s.head? = some '+' then s.tail else s
  if digits ≠ [] ∧ digits.all Char.isDigit = true then
    let n := Nat.ofDigitChars 10 digits 0
    if n < UInt64.size then some n else none
  else none

/-- The number that is set under a name, or else the given one. -/
def number (env : Environment) (key : String) (fallback : Nat) : Except SettingError Nat :=
  match env key with
  | none => .ok fallback
  | some value =>
    match numeral? (Text.trim value.toList) with
    | some n => .ok n
    | none => .error (.invalidNumber key value)

end Environment

/-- What can be set. -/
structure Settings where
  /-- The number of levels that nested annotations are followed. -/
  depth : Nat
deriving DecidableEq, Repr

namespace Settings

/-- The settings of an empty environment. -/
def default : Settings := ⟨64⟩

/-- The name under which the depth limit is set. -/
def depthKey : String := "EXO_ANNOTATION_MAX_DEPTH"

/-- The settings of an environment. -/
def ofEnvironment (env : Environment) : Except SettingError Settings := do
  let depth ← env.number depthKey default.depth
  if depth = 0 then .error (.outOfRange depthKey depth) else .ok ⟨depth⟩

/-- The settings in force: those of the environment if they can be used, else the default ones. -/
def inForce (env : Environment) : Settings :=
  match ofEnvironment env with
  | .ok s => s
  | .error _ => default

end Settings

end Annotations
