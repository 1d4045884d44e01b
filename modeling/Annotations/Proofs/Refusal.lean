import Annotations.Proofs.Handles
import Annotations.Proofs.Traces

/-!
# Refused methods

A hidden method is refused to everyone, and a policy refuses the methods whose names it lists. That
a method is refused is more than that it cannot be called.

* **Nothing depends on it.** Two objects of a type that differ at most in what their refused methods
  would do cannot be told apart by any question: not by reading an accessor, not by hashing,
  detaching, showing and writing, and not by comparing them with anything else
  (`Description.SeenAlike`). This also holds of the questions that end in an error, and of what the
  reading leaves behind.
* **It is never run**, at any depth that is read with the policy (`Policy.spared`).

All of this rests on a few facts about single accessors, the ones that an inspector has to
guarantee: it finds only accessors of the type, it looks at a method before it calls it, and it
calls nothing when it makes a value of an output (`Inspector.Guards`). The exception is the same as
for looking up: a handle may carry a method of another type of that name, and such a handle is
foreign (`LiveType.Foreign`).
-/

namespace Annotations

/-! ### Inspectors that guard methods -/

/-- The event is no run of a refused method. -/
def Event.Spares (refused : LiveMethod → Prop) : Event → Prop
  | ran m => ¬refused m
  | _ => True

/-- The inspector never runs a refused method, and does not depend on what it would give. -/
structure Inspector.Guards (i : Inspector) (refused : LiveMethod → Prop) : Prop where
  accessor : ∀ t h m, ¬t.Foreign h → (i.resolve t h).result = .ok m → m ∈ t.accessors
  resolve : ∀ t h, (i.resolve t h).Leaves (Event.Spares refused)
  invoke : ∀ m o, (i.invoke m o).Leaves (Event.Spares refused)
  normalize : ∀ o, (i.normalize o).Leaves (Event.Spares refused)
  blind : ∀ m o o', (¬refused m → m.call o = m.call o') → i.invoke m o = i.invoke m o'

/-- What is found by a handle that is not foreign is an accessor of the type. -/
theorem LiveType.mem_accessors_of_resolve {t : LiveType} {h : Handle} (own : ¬t.Foreign h)
    {m : LiveMethod} (found : t.resolve h = .ok m) : m ∈ t.accessors := by
  have byName : t.resolveByName h = .ok m → m ∈ t.accessors := by
    intro found
    rw [resolveByName] at found
    split at found
    · next m' hm' =>
      cases found
      obtain ⟨mem, -, parameters⟩ := parameters_of_accessor? hm'
      exact mem_accessors.2 ⟨mem, parameters⟩
    · cases found
  cases h with
  | stated o n k => exact byName found
  | live m' =>
    rw [resolve] at found
    split at found
    · next word =>
      cases found
      have mem : m ∈ t.methods := by
        by_contra other
        exact own ⟨m, rfl, word.1, word.2, other⟩
      exact mem_accessors.2 ⟨mem, word.2⟩
    · exact byName found

namespace LiveMethod

variable {refused : LiveMethod → Prop}

theorem invoke_spares {m : LiveMethod} (h : m.visibility = .visible → ¬refused m) (o : Instance) :
    (m.invoke o).Leaves (Event.Spares refused) := by
  rw [invoke]
  split
  · exact .throw _
  · next visible =>
    refine .bind (.record (h visible)) fun _ _ ↦ ?_
    cases m.call o with
    | ok output => exact .pure _
    | error cause => exact .throw _

theorem invoke_congr {m : LiveMethod} {o o' : Instance}
    (h : m.visibility = .visible → m.call o = m.call o') : m.invoke o = m.invoke o' := by
  rw [invoke, invoke]
  split
  · rfl
  · next visible => rw [h visible]

end LiveMethod

namespace Policy

/-- The policy refuses the method: it is hidden, or its name is in the list. -/
def Refuses (p : Policy) (m : LiveMethod) : Prop :=
  m.visibility = .hidden ∨ m.name ∈ p.refused

/-- The plain inspector is that of the policy without rules. -/
theorem inspector_empty : (⟨false, [], [], [], false⟩ : Policy).inspector = .plain := rfl

private theorem result_note (p : Policy) (text : String) : (p.note text).result = .ok () := by
  rw [note]
  split <;> rfl

private theorem note_leaves (p : Policy) (text : String) {refused : LiveMethod → Prop} :
    (p.note text).Leaves (Event.Spares refused) := by
  rw [note]
  split
  · exact .record trivial
  · exact .pure _

/-- The handle that is read in place of another carries no other method. -/
private theorem not_foreign_redirect (p : Policy) {t : LiveType} {h : Handle}
    (own : ¬t.Foreign h) : ¬t.Foreign (p.redirect h) := by
  rw [redirect]
  split
  · rintro ⟨m, hm, -⟩
    cases hm
  · exact own

/-- **An inspector keeps to its policy.** -/
theorem guards (p : Policy) : p.inspector.Guards p.Refuses where
  accessor t h m own found := by
    have found : (p.note _ >>= fun _ ↦ Eval.ofExcept (t.resolve (p.redirect h))).result = .ok m :=
      found
    rw [Eval.result_bind_of_eq_ok (p.result_note _)] at found
    exact LiveType.mem_accessors_of_resolve (p.not_foreign_redirect own) found
  resolve t h := .bind (p.note_leaves _) fun _ _ ↦ .ofExcept _
  invoke m o := by
    refine .bind (p.note_leaves _) fun _ _ ↦ ?_
    split
    · exact .throw _
    · next notRefused =>
      split
      · exact .throw _
      · refine m.invoke_spares (fun visible ↦ ?_) o
        rintro (hidden | refused)
        · cases visible.symm.trans hidden
        · exact notRefused (List.contains_iff_mem.2 refused)
  normalize o := .pure _
  blind m o o' same := by
    show (p.note _ >>= _ : Eval Output) = p.note _ >>= _
    congr 1
    funext u
    split
    · rfl
    · next notRefused =>
      split
      · rfl
      · refine m.invoke_congr fun visible ↦ same ?_
        rintro (hidden | refused)
        · cases visible.symm.trans hidden
        · exact notRefused (List.contains_iff_mem.2 refused)

end Policy

/-! ### Annotations that are read alike -/

/-- Sequences are the same when their second parts are, after every answer of the first. -/
theorem Eval.bind_congr {α β : Type} {x : Eval α} {f g : α → Eval β}
    (h : ∀ a, x.result = .ok a → f a = g a) : x >>= f = x >>= g := by
  refine Eval.ext (result_bind_congr rfl fun a ha ↦ by rw [h a ha]) ?_
  rw [trace_bind, trace_bind]
  cases hx : x.result with
  | ok a => simp only [h a hx]
  | error e => rfl

namespace Description

/-- The annotations are of the same type, and accessors are read alike on both: with the same
answers or errors, and with the same events. Foreign handles are left out. -/
structure ReadAlike (d e : Description) : Prop where
  type : d.type = e.type
  get : ∀ h, ¬d.Foreign h → d.get h = e.get h

/-- **An object does not show what its refused methods would do.** -/
theorem readAlike_of_guards {i : Inspector} {refused : LiveMethod → Prop}
    (guards : i.Guards refused) {o o' : Instance} (type : o.type = o'.type)
    (same : ∀ m ∈ o.type.accessors, ¬refused m → m.call o = m.call o') :
    ReadAlike (.live ⟨o, i⟩) (.live ⟨o', i⟩) := by
  refine ⟨congrArg LiveType.describe type, fun h own ↦ ?_⟩
  simp only [get_live, Live.get, ← type]
  split
  · refine Eval.bind_congr fun _ _ ↦ Eval.bind_congr fun m found ↦ ?_
    have accessor : m ∈ o.type.accessors := guards.accessor _ h m own found
    rw [guards.blind m o o' (same m accessor)]
  · rfl

section

variable {d e : Description} {as : List Accessor}
  (reads : ∀ a ∈ as, d.get a.handle = e.get a.handle)
include reads

private theorem hashOn_congr {f : Value → Eval UInt64} (n : UInt64) :
    hashOn f d n as = hashOn f e n as := by
  induction as generalizing n with
  | nil => rfl
  | cons a as ih =>
    obtain ⟨first, rest⟩ := List.forall_mem_cons.1 reads
    simp only [hashOn, first, ih rest]

private theorem detachOn_congr {f : Value → Eval Value} : detachOn f d as = detachOn f e as := by
  induction as with
  | nil => rfl
  | cons a as ih =>
    obtain ⟨first, rest⟩ := List.forall_mem_cons.1 reads
    simp only [detachOn, first, ih rest]

private theorem renderSlots_congr {f : Value → Traced String} :
    as.mapM (renderSlot f d) = as.mapM (renderSlot f e) := by
  induction as with
  | nil => rfl
  | cons a as ih =>
    obtain ⟨first, rest⟩ := List.forall_mem_cons.1 reads
    simp only [List.mapM_cons, renderSlot, first, ih rest]

private theorem agreeOn_congr {f : Value → Value → Eval Bool} {x y : Description}
    (reads' : ∀ a ∈ as, x.get a.handle = y.get a.handle) :
    agreeOn f d x as = agreeOn f e y as := by
  induction as with
  | nil => rfl
  | cons a as ih =>
    obtain ⟨first, rest⟩ := List.forall_mem_cons.1 reads
    obtain ⟨first', rest'⟩ := List.forall_mem_cons.1 reads'
    simp only [agreeOn, first, first', ih rest rest']

end

namespace ReadAlike

variable {d e : Description} (alike : ReadAlike d e)
include alike

/-- Declared accessors are read alike. -/
private theorem declared : ∀ a ∈ d.type.accessors, d.get a.handle = e.get a.handle :=
  fun _ ha ↦ alike.get _ (not_foreign_of_mem ha)

theorem typeName : d.typeName = e.typeName :=
  congrArg TypeDecl.name alike.type

theorem named (n : String) : d.named n = e.named n := by
  rw [Description.named, Description.named, ← alike.type, alike.typeName]
  split
  · next a found => exact alike.declared a (TypeDecl.of_accessor?_eq_some found).1
  · rfl

theorem hash (limit : Nat) : d.hash limit = e.hash limit := by
  rw [Description.hash, Description.hash]
  cases limit with
  | zero => rfl
  | succ room =>
    rw [hashWithin, hashWithin, ← alike.type]
    exact hashOn_congr alike.declared 0

theorem detach (limit : Nat) : d.detach limit = e.detach limit := by
  rw [Description.detach, Description.detach]
  cases limit with
  | zero => rfl
  | succ room => rw [detachWithin, detachWithin, ← alike.type, detachOn_congr alike.declared]

theorem render (limit : Nat) : d.render limit = e.render limit := by
  rw [Description.render, Description.render]
  cases limit with
  | zero => rw [renderWithin, renderWithin, alike.typeName]
  | succ room =>
    rw [renderWithin, renderWithin, ← alike.type, alike.typeName, renderSlots_congr alike.declared]

theorem equal_left (limit : Nat) (x : Description) : d.equal limit x = e.equal limit x := by
  rw [equal, equal]
  cases limit with
  | zero => rfl
  | succ room =>
    rw [equalWithin, equalWithin, ← alike.type, agreeOn_congr alike.declared fun _ _ ↦ rfl]

/-- On the right of a comparison, an annotation is read by the accessors of the left one. -/
theorem equal_right (limit : Nat) {x : Description}
    (own : ∀ a ∈ x.type.accessors, ¬d.Foreign a.handle) : x.equal limit d = x.equal limit e := by
  rw [equal, equal]
  cases limit with
  | zero => rfl
  | succ room =>
    rw [equalWithin, equalWithin, ← alike.type]
    rw [agreeOn_congr (fun _ _ ↦ rfl) fun a ha ↦ alike.get _ (own a ha)]

end ReadAlike

/-- No question tells the annotations apart: the answers, the errors and the traces are the same.
Handles that are foreign to the annotations are left out, and annotations that declare such handles
where they are on the left of a comparison. -/
structure SeenAlike (d e : Description) : Prop where
  get : ∀ h, ¬d.Foreign h → d.get h = e.get h
  named : ∀ n, d.named n = e.named n
  hash : ∀ limit, d.hash limit = e.hash limit
  detach : ∀ limit, d.detach limit = e.detach limit
  render : ∀ limit, d.render limit = e.render limit
  write : ∀ limit, d.write limit = e.write limit
  equal_left : ∀ limit x, d.equal limit x = e.equal limit x
  equal_right : ∀ limit (x : Description), (∀ a ∈ x.type.accessors, ¬d.Foreign a.handle) →
    x.equal limit d = x.equal limit e

/-- Live annotations that are read alike are seen alike. -/
theorem ReadAlike.seenAlike {l k : Live} (alike : ReadAlike (.live l) (.live k)) :
    SeenAlike (.live l) (.live k) where
  get := alike.get
  named := alike.named
  hash := alike.hash
  detach := alike.detach
  render := alike.render
  write limit := by
    -- A live annotation is detached before it is written.
    show ((live l).detach limit >>= _) = ((live k).detach limit >>= _)
    rw [alike.detach]
  equal_left := alike.equal_left
  equal_right limit _ own := alike.equal_right limit own

end Description

/-! ### What is never run -/

/-- A live part is read with the inspector. -/
def Part.ReadWith (i : Inspector) : Part → Prop
  | live l => l.inspector = i
  | _ => True

theorem Part.lenient_readWith (i : Inspector) : Lenient (ReadWith i) where
  value _ := trivial
  type _ := trivial

/-- The inspector is kept inside, if it is passed on. -/
theorem Part.inherited_readWith {i : Inspector} (kept : i.PassesOn) : Inherited (ReadWith i) :=
  .of_usual (lenient_readWith i) fun l read ↦ by
    obtain rfl : l.inspector = i := read
    exact ⟨l.inspector, kept, fun _ ↦ rfl⟩

/-- Asked for an accessor, an annotation that is read with a guarding inspector spares the refused
methods, whatever the handle. -/
theorem Live.get_spares {i : Inspector} {refused : LiveMethod → Prop} (guards : i.Guards refused)
    {l : Live} (read : l.inspector = i) (h : Handle) :
    (l.get h).Leaves (Event.Spares refused) := by
  rw [Live.get, read]
  split
  · refine .bind (.record trivial) fun _ _ ↦ .bind (guards.resolve _ h) fun m _ ↦ ?_
    exact .bind (guards.invoke m _) fun o _ ↦ .ofTraced (guards.normalize o)
  · exact .throw _

namespace Policy

theorem passesOn {p : Policy} (kept : p.plainNested = false) : p.inspector.PassesOn := fun o ↦ by
  rw [normalize_inspector, inner_inspector, kept]
  rfl

/-- No reading of the annotation runs a refused method, and no comparison of it with an annotation
of which all live parts are read with the policy. -/
structure Spared (p : Policy) (d : Description) : Prop where
  get : ∀ h, (d.get h).Leaves (Event.Spares p.Refuses)
  named : ∀ n, (d.named n).Leaves (Event.Spares p.Refuses)
  hash : ∀ limit, (d.hash limit).Leaves (Event.Spares p.Refuses)
  detach : ∀ limit, (d.detach limit).Leaves (Event.Spares p.Refuses)
  render : ∀ limit, (d.render limit).Leaves (Event.Spares p.Refuses)
  write : ∀ limit, (d.write limit).Leaves (Event.Spares p.Refuses)
  equal : ∀ limit x, (Part.ofDescription x).Throughout (Part.ReadWith p.inspector) →
    (d.equal limit x).Leaves (Event.Spares p.Refuses) ∧
      (x.equal limit d).Leaves (Event.Spares p.Refuses)

/-- **A refused method is never run**, where nested annotations are read with the policy too. -/
theorem spared {p : Policy} (kept : p.plainNested = false) {d : Description}
    (read : (Part.ofDescription d).Throughout (Part.ReadWith p.inspector)) : p.Spared d := by
  have watched : Part.Watched (Part.ReadWith p.inspector) (Event.Spares p.Refuses) :=
    ⟨Part.inherited_readWith (passesOn kept), fun l hl ↦ Live.get_spares p.guards hl⟩
  exact ⟨watched.get read, watched.named read, watched.hash read, watched.detach read,
    watched.render read, watched.write read,
    fun limit x hx ↦ ⟨watched.equal read hx limit, watched.equal hx read limit⟩⟩

/-- **Refused methods do not leak.** Take two objects of one type that are read with a policy, and
let those of their accessors that are not refused give the same; what the refused ones would do may
differ in any way.

* No question tells the two apart. All questions are covered: reading by every handle that is stated
  or carries a method of the type, reading by name, hashing, detaching, showing, writing, and
  comparing with any third annotation on either side. On the left, the third annotation must not
  declare a handle that carries a method of another type of the same name.
* Asking for an accessor runs no refused method. Nor does any other question, to any depth, about an
  annotation of which all live parts are read with the policy, if that is used for nested
  annotations too. -/
theorem refused_unseen (p : Policy) {o o' : Instance} (type : o.type = o'.type)
    (same : ∀ m ∈ o.type.accessors, ¬p.Refuses m → m.call o = m.call o') :
    Description.SeenAlike (.live ⟨o, p.inspector⟩) (.live ⟨o', p.inspector⟩) ∧
    (∀ h, (Live.get ⟨o, p.inspector⟩ h).Leaves (Event.Spares p.Refuses)) ∧
    (p.plainNested = false → ∀ d : Description,
      (Part.ofDescription d).Throughout (Part.ReadWith p.inspector) → p.Spared d) :=
  ⟨(Description.readAlike_of_guards p.guards type same).seenAlike,
    Live.get_spares p.guards rfl, fun kept _ read ↦ spared kept read⟩

/-- Takes notes of everything, and refuses the codes. -/
def sentry : Policy where
  audited := true
  refused := ["code"]
  failing := []
  aliases := []
  plainNested := false

/-- The type of the safes: anyone may see the label, nobody the key, and the code is refused. -/
def safeType : LiveType :=
  .ofMethods "com.example.Safe"
    [.accessor "label" .string .recorded,
      { LiveMethod.accessor "key" .int .recorded with visibility := .hidden },
      .accessor "code" .int .recorded]

/-- A safe with a key and a code. -/
def safe : Instance :=
  .record safeType
    [("label", .ok (.string "papers")), ("key", .ok (.int 7)), ("code", .ok (.int 1234))]

/-- A safe with another key, of which the code cannot be had. -/
def otherSafe : Instance :=
  .record safeType
    [("label", .ok (.string "papers")), ("key", .ok (.int 8)), ("code", .error "forgotten")]

/-- Two safes with the same label look the same, though keys and codes differ. -/
theorem refused_unseen_safe :
    safe.type = otherSafe.type ∧
    (∀ m ∈ safe.type.accessors, ¬sentry.Refuses m → m.call safe = m.call otherSafe) ∧
    (∃ m ∈ safe.type.accessors, m.name = "key" ∧ m.call safe ≠ m.call otherSafe) ∧
    (∃ m ∈ safe.type.accessors, m.name = "code" ∧ m.call safe ≠ m.call otherSafe) ∧
    Description.SeenAlike (.live ⟨safe, sentry.inspector⟩) (.live ⟨otherSafe, sentry.inspector⟩) ∧
    sentry.Spared (.live ⟨safe, sentry.inspector⟩) := by
  have same : ∀ m ∈ safe.type.accessors, ¬sentry.Refuses m → m.call safe = m.call otherSafe := by
    intro m hm allowed
    rcases List.mem_cons.1 hm with rfl | hm
    · rfl
    · rcases List.mem_cons.1 hm with rfl | hm
      · exact absurd (.inl rfl) allowed
      · obtain rfl := List.mem_singleton.1 hm
        exact absurd (.inr List.mem_cons_self) allowed
  have type : safe.type = otherSafe.type := rfl
  obtain ⟨seenAlike, -, spared⟩ := sentry.refused_unseen type same
  exact ⟨type, same, ⟨_, .tail _ (.head _), rfl, nofun⟩,
    ⟨_, .tail _ (.tail _ (.head _)), rfl, nofun⟩, seenAlike,
    spared rfl _ (Part.throughout_live_iff.2 rfl)⟩

end Policy

end Annotations
