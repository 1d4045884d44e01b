import Annotations.Live.Basic
import Annotations.ReadError

/-!
# Readings

A reading answers a question about annotations. It ends in an answer or in an error, and it leaves a
trace of what was done to live annotations on the way (`Event`). `Traced` computations always end in
an answer; a reading (`Eval`) is a traced computation whose answer may be an error.

The result of a reading depends on the results of its parts alone (`result_bind`), and its trace is
the traces of the parts that were run, one after the other (`trace_bind`).
-/

namespace Annotations

/-- What a reading does to live annotations. -/
inductive Event where
  /-- A live annotation of this type was asked for this accessor. -/
  | asked (type accessor : String)
  /-- The body of a method was run. -/
  | ran (method : LiveMethod)
  /-- An auditing inspector took a note. -/
  | noted (text : String)

/-- The note that an event leaves for the caller. -/
def Event.note? : Event → Option String
  | noted text => some text
  | _ => none

/-- A computation with a trace. -/
structure Traced (α : Type) where
  value : α
  trace : List Event

namespace Traced

instance : Monad Traced where
  pure a := ⟨a, []⟩
  bind x f :=
    let y := f x.value
    ⟨y.value, x.trace ++ y.trace⟩

@[ext] theorem ext {α : Type} {x y : Traced α} (value : x.value = y.value)
    (trace : x.trace = y.trace) : x = y := by
  cases x; cases y; simp_all

@[simp] theorem value_pure {α : Type} (a : α) : (pure a : Traced α).value = a := rfl

@[simp] theorem trace_pure {α : Type} (a : α) : (pure a : Traced α).trace = [] := rfl

@[simp] theorem value_bind {α β : Type} (x : Traced α) (f : α → Traced β) :
    (x >>= f).value = (f x.value).value := rfl

@[simp] theorem trace_bind {α β : Type} (x : Traced α) (f : α → Traced β) :
    (x >>= f).trace = x.trace ++ (f x.value).trace := rfl

@[simp] theorem value_map {α β : Type} (f : α → β) (x : Traced α) :
    (f <$> x).value = f x.value := rfl

@[simp] theorem trace_map {α β : Type} (f : α → β) (x : Traced α) : (f <$> x).trace = x.trace :=
  List.append_nil x.trace

instance : LawfulMonad Traced := LawfulMonad.mk' Traced
  (fun x ↦ ext rfl (List.append_nil x.trace))
  (fun a f ↦ ext rfl (List.nil_append (f a).trace))
  (fun x f g ↦ ext rfl (List.append_assoc x.trace (f x.value).trace (g (f x.value).value).trace))

@[simp] theorem value_mapM {α β : Type} (f : α → Traced β) (as : List α) :
    (as.mapM f).value = as.map fun a ↦ (f a).value := by
  induction as with
  | nil => rfl
  | cons a as ih => simp [List.mapM_cons, ih]

end Traced

/-- A reading: an answer or an error, with a trace. -/
abbrev Eval := ExceptT ReadError Traced

namespace Eval

/-- How a reading ends. -/
def result {α : Type} (x : Eval α) : Except ReadError α := x.run.value

/-- What a reading does on the way. -/
def trace {α : Type} (x : Eval α) : List Event := x.run.trace

/-- The notes that auditing inspectors took. -/
def notes {α : Type} (x : Eval α) : List String := x.trace.filterMap Event.note?

/-- A reading that ends as given and does nothing. -/
def ofExcept {α : Type} (r : Except ReadError α) : Eval α := ExceptT.mk ⟨r, []⟩

/-- The reading that does nothing but leave an event. -/
def record (e : Event) : Eval Unit := ExceptT.mk ⟨.ok (), [e]⟩

/-- The traced computation as a reading that ends in an answer. -/
def ofTraced {α : Type} (x : Traced α) : Eval α := ExceptT.mk (Except.ok <$> x)

/-- The reading with its error as an answer. -/
def attempt {α : Type} (x : Eval α) : Traced (Except ReadError α) := x.run

@[ext] theorem ext {α : Type} {x y : Eval α} (result : x.result = y.result)
    (trace : x.trace = y.trace) : x = y :=
  ExceptT.ext (Traced.ext result trace)

@[simp] theorem result_pure {α : Type} (a : α) : (pure a : Eval α).result = .ok a := rfl

@[simp] theorem trace_pure {α : Type} (a : α) : (pure a : Eval α).trace = [] := rfl

@[simp] theorem result_throw {α : Type} (e : ReadError) :
    (throw e : Eval α).result = .error e := rfl

@[simp] theorem trace_throw {α : Type} (e : ReadError) : (throw e : Eval α).trace = [] := rfl

@[simp] theorem result_ofExcept {α : Type} (r : Except ReadError α) :
    (ofExcept r).result = r := rfl

@[simp] theorem trace_ofExcept {α : Type} (r : Except ReadError α) :
    (ofExcept r).trace = [] := rfl

@[simp] theorem result_ofTraced {α : Type} (x : Traced α) :
    (ofTraced x).result = .ok x.value := rfl

@[simp] theorem trace_ofTraced {α : Type} (x : Traced α) : (ofTraced x).trace = x.trace :=
  Traced.trace_map _ x

@[simp] theorem ofTraced_pure {α : Type} (a : α) : ofTraced (pure a) = pure a := rfl

@[simp] theorem result_record (e : Event) : (record e).result = .ok () := rfl

@[simp] theorem trace_record (e : Event) : (record e).trace = [e] := rfl

@[simp] theorem result_bind {α β : Type} (x : Eval α) (f : α → Eval β) :
    (x >>= f).result = x.result >>= fun a ↦ (f a).result := by
  rcases x with ⟨_ | _, _⟩ <;> rfl

/-- A sequence of readings ends in an answer when both of them do. -/
theorem result_bind_eq_ok {α β : Type} {x : Eval α} {f : α → Eval β} {b : β} :
    (x >>= f).result = .ok b ↔ ∃ a, x.result = .ok a ∧ (f a).result = .ok b := by
  rw [result_bind]
  cases x.result with
  | error e => simp [bind, Except.bind]
  | ok a => simp [bind, Except.bind]

theorem result_bind_of_eq_ok {α β : Type} {x : Eval α} {a : α} (h : x.result = .ok a)
    (f : α → Eval β) : (x >>= f).result = (f a).result := by
  rw [result_bind, h]
  rfl

theorem result_bind_of_eq_error {α β : Type} {x : Eval α} {e : ReadError} (h : x.result = .error e)
    (f : α → Eval β) : (x >>= f).result = .error e := by
  rw [result_bind, h]
  rfl

/-- Sequences end alike when their first parts do, and then their second parts after every answer
of the first. -/
theorem result_bind_congr {α β : Type} {x y : Eval α} {f g : α → Eval β}
    (first : x.result = y.result)
    (second : ∀ a, x.result = .ok a → (f a).result = (g a).result) :
    (x >>= f).result = (y >>= g).result := by
  cases h : x.result with
  | error e => rw [result_bind_of_eq_error h, result_bind_of_eq_error (first.symm.trans h)]
  | ok a =>
    rw [result_bind_of_eq_ok h, result_bind_of_eq_ok (first.symm.trans h)]
    exact second a h

theorem trace_bind {α β : Type} (x : Eval α) (f : α → Eval β) :
    (x >>= f).trace = x.trace ++ match x.result with
      | .ok a => (f a).trace
      | .error _ => [] := by
  rcases x with ⟨_ | _, _⟩ <;> rfl

@[simp] theorem result_map {α β : Type} (g : α → β) (x : Eval α) :
    (g <$> x).result = x.result.map g := by
  rcases x with ⟨_ | _, _⟩ <;> rfl

@[simp] theorem trace_map {α β : Type} (g : α → β) (x : Eval α) : (g <$> x).trace = x.trace := by
  rcases x with ⟨_ | _, _⟩ <;> simp [trace, Functor.map, ExceptT.map, ExceptT.mk, ExceptT.run]

@[simp] theorem value_attempt {α : Type} (x : Eval α) : x.attempt.value = x.result := rfl

@[simp] theorem trace_attempt {α : Type} (x : Eval α) : x.attempt.trace = x.trace := rfl

end Eval

end Annotations
