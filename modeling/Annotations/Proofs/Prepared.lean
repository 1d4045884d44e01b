import Annotations.Description.Prepared

/-!
# What preparing checks

Preparing is to decide once whether something is of a class, so that loading need not ask again. For
annotations it does: a live one is prepared only if its object is an instance of the class, and
**what is loaded is that object** (`Description.load_of_prepare`).

For constants it goes by the name of the type, and an object may have a type of this name without
being one of the class: a **stranger** (`Constant.Stranger`). It is prepared, and only loading finds
out; the message then names one type twice.

* All other constants **are loaded by their names**, whether they are stated or live
  (`PreparedConstant.load_of_not_stranger`). So constants that are the same are loaded alike
  (`PreparedConstant.load_eq_of_same`).
* `PreparedConstant.load_eq_ok_iff` and `PreparedConstant.load_eq_error_iff` say what is loaded and
  which errors there are; `Constant.prepare_then_load` puts them after preparing.

All this is for any class with the laws of `LawfulEnumerationClass`: it knows its constants by their
objects and by their names. The enumeration classes of the catalogue do.
-/

namespace Annotations

/-! ### Enumeration classes -/

/-- The laws of an enumeration class: its constants are objects of its type, and it finds each of
them by the object and by the name. -/
class LawfulEnumerationClass (α : Type) [EnumerationClass α] where
  /-- The object of a constant. -/
  object : α → LiveConstant
  /-- The objects are of the type of the class. -/
  type_object (x : α) : (object x).type = EnumerationClass.type α
  /-- A constant is found by its object. -/
  ofConstant?_eq_some_iff {o : LiveConstant} {x : α} :
    EnumerationClass.ofConstant? o = some x ↔ object x = o
  /-- A constant is found by its name. -/
  ofName?_eq_some_iff {n : String} {x : α} :
    EnumerationClass.ofName? n = some x ↔ (object x).name = n

instance : LawfulEnumerationClass Color where
  object := .color
  type_object _ := rfl
  ofConstant?_eq_some_iff {o _} := by cases o <;> simp [EnumerationClass.ofConstant?, eq_comm]
  ofName?_eq_some_iff := ⟨Color.name_of_ofName?, fun h ↦ h ▸ Color.ofName?_name _⟩

instance : LawfulEnumerationClass Priority where
  object := .priority
  type_object _ := rfl
  ofConstant?_eq_some_iff {o _} := by cases o <;> simp [EnumerationClass.ofConstant?, eq_comm]
  ofName?_eq_some_iff := ⟨Priority.name_of_ofName?, fun h ↦ h ▸ Priority.ofName?_name _⟩

/-! ### Preparing constants -/

open LawfulEnumerationClass (object type_object ofConstant?_eq_some_iff ofName?_eq_some_iff)

section

variable {α : Type} [EnumerationClass α] {c : Constant}

/-- **A constant is prepared exactly if the name of its type is that of the class.** -/
theorem Constant.prepare_eq_ok_iff {p : PreparedConstant α} :
    c.prepare α = .ok p ↔ c.typeName = (EnumerationClass.type α).name ∧ p = ⟨c⟩ := by
  rw [prepare]
  split
  · next h => simp [h, eq_comm]
  · next h => simp [Ne.symm h]

/-- Otherwise both types are named. -/
theorem Constant.prepare_eq_error (h : c.typeName ≠ (EnumerationClass.type α).name) :
    c.prepare α = .error (.typeMismatch (EnumerationClass.type α).name c.typeName) :=
  if_neg h.symm

end

variable {α : Type} [EnumerationClass α] [LawfulEnumerationClass α]

namespace Constant

/-- The constant is one of the class: its object, or stated with its name. -/
def Denotes (c : Constant) (x : α) : Prop :=
  c = .live (object x) ∨ ∃ t, c = .stated t (object x).name

variable (α)

/-- A live constant that is none of the class, whatever its type. -/
def Stranger (c : Constant) : Prop :=
  ∃ o, c = .live o ∧ ∀ x : α, object x ≠ o

/-- A stated constant with a name that none of the class has. -/
def Unknown (c : Constant) : Prop :=
  ∃ t n, c = .stated t n ∧ ∀ x : α, (object x).name ≠ n

variable {α} {o : LiveConstant} {t : TypeDecl} {n : String} {x : α}

@[simp] theorem denotes_live_iff : (live o).Denotes x ↔ object x = o := by
  simp [Denotes, eq_comm]

@[simp] theorem denotes_stated_iff : (stated t n).Denotes x ↔ (object x).name = n := by
  simp [Denotes, eq_comm]

@[simp] theorem stranger_live_iff :
    (live o).Stranger α ↔ (EnumerationClass.ofConstant? o : Option α) = none := by
  simp only [Option.eq_none_iff_forall_ne_some, ne_eq, ofConstant?_eq_some_iff]
  constructor
  · rintro ⟨_, h, other⟩
    cases h
    exact other
  · intro other
    exact ⟨o, rfl, other⟩

@[simp] theorem not_stranger_stated : ¬(stated t n).Stranger α :=
  fun ⟨_, h, _⟩ ↦ nomatch h

@[simp] theorem not_unknown_live : ¬(live o).Unknown α :=
  fun ⟨_, _, h, _⟩ ↦ nomatch h

@[simp] theorem unknown_stated_iff :
    (stated t n).Unknown α ↔ (EnumerationClass.ofName? n : Option α) = none := by
  simp only [Option.eq_none_iff_forall_ne_some, ne_eq, ofName?_eq_some_iff]
  constructor
  · rintro ⟨_, _, h, other⟩
    cases h
    exact other
  · intro other
    exact ⟨t, n, rfl, other⟩

end Constant

/-! ### Loading constants -/

namespace PreparedConstant

variable {p q : PreparedConstant α}

/-- **The object itself is loaded, or the constant with the stated name.** -/
theorem load_eq_ok_iff {x : α} : p.load = .ok x ↔ p.constant.Denotes x := by
  obtain ⟨c⟩ := p
  cases c with
  | live o =>
    rw [Constant.denotes_live_iff, ← ofConstant?_eq_some_iff]
    simp only [load]
    cases (EnumerationClass.ofConstant? o : Option α) <;> simp
  | stated t n =>
    rw [Constant.denotes_stated_iff, ← ofName?_eq_some_iff]
    simp only [load]
    cases (EnumerationClass.ofName? n : Option α) <;> simp

/-- **Strangers and unknown names cannot be loaded**, and nothing else fails. -/
theorem load_eq_error_iff {e : ReadError} :
    p.load = .error e ↔
      (p.constant.Stranger α ∧
        e = .typeMismatch (EnumerationClass.type α).name p.constant.typeName) ∨
      (p.constant.Unknown α ∧ e = .unknownConstant p.constant.typeName p.constant.name) := by
  obtain ⟨c⟩ := p
  cases c with
  | live o =>
    simp only [load, Constant.stranger_live_iff, Constant.not_unknown_live, false_and, or_false]
    cases (EnumerationClass.ofConstant? o : Option α) with
    | none => simp [Constant.typeName, Constant.type, eq_comm]
    | some x => simp
  | stated t n =>
    simp only [load, Constant.not_stranger_stated, Constant.unknown_stated_iff, false_and, false_or]
    cases (EnumerationClass.ofName? n : Option α) with
    | none => simp [Constant.typeName, Constant.type, Constant.name, eq_comm]
    | some x => simp

/-- **All but strangers are loaded by their names.** -/
theorem load_of_not_stranger (h : ¬p.constant.Stranger α) :
    p.load =
      match EnumerationClass.ofName? p.constant.name with
      | some x => .ok x
      | none => .error (.unknownConstant p.constant.typeName p.constant.name) := by
  obtain ⟨c⟩ := p
  cases c with
  | live o =>
    obtain ⟨x, found⟩ := Option.ne_none_iff_exists'.1 (mt Constant.stranger_live_iff.2 h)
    obtain rfl := ofConstant?_eq_some_iff.1 found
    have named : EnumerationClass.ofName? (object x).name = some x := ofName?_eq_some_iff.2 rfl
    simp only [load, found, Constant.name, named]
  | stated t n => rfl

/-- Constants that are the same are loaded alike, if none is a stranger. -/
theorem load_eq_of_same (hp : ¬p.constant.Stranger α) (hq : ¬q.constant.Stranger α)
    (same : p.constant.same q.constant = true) : p.load = q.load := by
  obtain ⟨typeName, name⟩ := Constant.same_iff.1 same
  rw [load_of_not_stranger hp, load_of_not_stranger hq, typeName, name]

/-- What is loaded is the same constant, if the type was right. -/
theorem same_of_load {x : α} (typed : p.constant.typeName = (EnumerationClass.type α).name)
    (h : p.load = .ok x) : (Constant.live (object x)).same p.constant = true := by
  refine Constant.same_iff.2 ⟨?_, ?_⟩
  · rw [typed, ← type_object x]
    rfl
  · rcases load_eq_ok_iff.1 h with live | ⟨t, stated⟩
    · rw [live]
    · rw [stated]
      rfl

end PreparedConstant

namespace Constant

/-- **What preparing a constant for a class and loading it end in.** Preparing succeeds exactly if
the name of the type is that of the class; otherwise both types are named. Of a constant that was
prepared,

* the object is loaded if it is live and the class has it, and the constant with its name if it is
  stated and the class has one; this is the same constant;
* otherwise it is stated and its name is unknown to the class, or it is a stranger, and the type of
  the class is said to mismatch itself.

So there is a type mismatch after preparing for strangers only. -/
theorem prepare_then_load (α : Type) [EnumerationClass α] [LawfulEnumerationClass α]
    (c : Constant) :
    (c.typeName ≠ (EnumerationClass.type α).name →
      c.prepare α = .error (.typeMismatch (EnumerationClass.type α).name c.typeName)) ∧
    (c.typeName = (EnumerationClass.type α).name → ∃ p, c.prepare α = .ok p ∧
      (∀ x, p.load = .ok x ↔ c.Denotes x) ∧
      (∀ x, p.load = .ok x → (Constant.live (object x)).same c = true) ∧
      (∀ e, p.load = .error e ↔
        (c.Stranger α ∧
          e = .typeMismatch (EnumerationClass.type α).name (EnumerationClass.type α).name) ∨
        (c.Unknown α ∧ e = .unknownConstant (EnumerationClass.type α).name c.name)) ∧
      ((∃ expected actual, p.load = .error (.typeMismatch expected actual)) ↔ c.Stranger α)) := by
  refine ⟨prepare_eq_error, fun typed ↦ ?_⟩
  have prepared : c.prepare α = .ok ⟨c⟩ := prepare_eq_ok_iff.2 ⟨typed, rfl⟩
  have fails (e : ReadError) :=
    @PreparedConstant.load_eq_error_iff α _ _ ⟨c⟩ e
  rw [show (⟨c⟩ : PreparedConstant α).constant = c from rfl, typed] at fails
  refine ⟨⟨c⟩, prepared, fun x ↦ PreparedConstant.load_eq_ok_iff,
    fun x ↦ PreparedConstant.same_of_load typed, fails, ?_⟩
  simp [fails]

/-- Of three constants that claim to be colors, one is a color and one has a color's name. -/
theorem prepare_then_load_colors :
    (∃ p, (live (.color .red)).prepare Color = .ok p ∧ p.load = .ok .red) ∧
    (∃ p, (stated Color.liveType.describe "GREEN").prepare Color = .ok p ∧ p.load = .ok .green) ∧
    (∃ p, (stated Color.liveType.describe "PINK").prepare Color = .ok p ∧
      p.load = .error (.unknownConstant "com.example.Color" "PINK")) ∧
    (live (.priority .low)).prepare Color =
      .error (.typeMismatch "com.example.Color" "com.example.Priority") := by
  obtain ⟨p, red, loaded, -⟩ := (prepare_then_load Color (live (.color .red))).2 rfl
  obtain ⟨q, green, named, -⟩ :=
    (prepare_then_load Color (stated Color.liveType.describe "GREEN")).2 rfl
  obtain ⟨r, pink, -, -, fails, -⟩ :=
    (prepare_then_load Color (stated Color.liveType.describe "PINK")).2 rfl
  refine ⟨⟨p, red, (loaded _).2 (.inl rfl)⟩, ⟨q, green, (named _).2 (.inr ⟨_, rfl⟩)⟩,
    ⟨r, pink, (fails _).2 (.inr ⟨unknown_stated_iff.2 rfl, rfl⟩)⟩, ?_⟩
  exact (prepare_then_load Color (live (.priority .low))).1 (by decide)

/-- A constant with the type and the name of a color that is no color: it is prepared, and not
loaded. -/
theorem strange_red_not_loaded :
    ∃ p, (live (.free Color.liveType "RED")).prepare Color = .ok p ∧
      p.load = .error (.typeMismatch "com.example.Color" "com.example.Color") :=
  ⟨⟨_⟩, rfl, rfl⟩

end Constant

/-! ### Annotations -/

/-- **A prepared annotation is not asked again what it is.** If it is live, its own object is
loaded; if it is stated, its type has the name of the class, and an instance is made from the
values. -/
theorem Description.load_of_prepare {α : Type} [AnnotationClass α] {d : Description}
    {p : Prepared α} (h : d.prepare α = .ok p) :
    (∃ l x, d = .live l ∧ AnnotationClass.ofInstance? l.object = some x ∧ p.load = pure x) ∨
    (∃ s, d = .stated s ∧ s.type.name = (AnnotationClass.type α).name ∧
      p.load = AnnotationClass.materialize d) := by
  rw [prepare] at h
  split at h
  · next belongs =>
    cases h
    cases d with
    | live l =>
      obtain ⟨x, found⟩ := Option.isSome_iff_exists.1 belongs
      exact .inl ⟨l, x, rfl, found, by simp only [Prepared.load, found]⟩
    | stated s => exact .inr ⟨s, rfl, beq_iff_eq.1 belongs, rfl⟩
  · cases h

end Annotations
