import Annotations.Proofs.Refusal
import Mathlib.Logic.Relation

/-!
# What is found is inspected

From a live annotation others are found by asking: an answer may hold annotations, in arrays of any
depth, and these can be asked in turn (`Description.Finds`). Any handle may be used on the way, also
one that the annotation does not declare. An inspector that restricts or records what is read would
be of little use if it could be left behind on such a way.

It cannot, if it makes the usual values of outputs and is the inspector of the annotations in them
(`Inspector.PassesOn`): **whatever is found is live and read with the same inspector**
(`Inspector.inspected_of_finds`). One answer is looked through by
`Part.Inherited`, and the induction is over the way. Therefore, on all that is found,

* an accessor of a name that the inspector denies (`Inspector.Denies`) is denied;
* what the inspector records of each question or of each call (`Inspector.RecordsQuestions`,
  `Inspector.RecordsCalls`) is recorded;
* nothing is done on the way to an answer but by the inspector, whatever the question
  (`Event.Of`).

A policy denies the names that it refuses, and one that takes notes records both.
-/

namespace Annotations

/-! ### Ways through annotations -/

namespace Description

/-- The second annotation occurs in what the first one answers to some handle. -/
def Yields (d e : Description) : Prop :=
  ∃ h v, (d.get h).result = .ok v ∧ v.Holds e

/-- The second annotation is found from the first one by asking, in any number of steps. -/
def Finds : Description → Description → Prop :=
  Relation.ReflTransGen Yields

end Description

/-- A live part is read with the inspector, and no part is a stated annotation. -/
def Part.LiveWith (i : Inspector) : Part → Prop
  | live l => l.inspector = i
  | stated _ => False
  | _ => True

/-- What an annotation answers that is read with the inspector is live and read with it again. -/
theorem Part.inherited_liveWith {i : Inspector} (keeps : i.PassesOn) : Inherited (LiveWith i) :=
  .of_usual ⟨fun _ ↦ trivial, fun _ ↦ trivial⟩ fun l read ↦ by
    obtain rfl : l.inspector = i := read
    exact ⟨l.inspector, keeps, fun _ ↦ rfl⟩

namespace Description

variable {i : Inspector} {d e : Description}

theorem exists_live_of_liveWith (h : (Part.ofDescription d).LiveWith i) :
    ∃ o, d = .live ⟨o, i⟩ := by
  cases d with
  | stated s => exact h.elim
  | live l =>
    obtain ⟨o, j⟩ := l
    obtain rfl : j = i := h
    exact ⟨o, rfl⟩

/-- What is found is throughout as what it is found from. -/
theorem Finds.throughout {P : Part → Prop} (inherited : Part.Inherited P) (finds : d.Finds e)
    (hd : (Part.ofDescription d).Throughout P) : (Part.ofDescription e).Throughout P := by
  induction finds with
  | refl => exact hd
  | tail _ yields ih =>
    obtain ⟨h, v, read, holds⟩ := yields
    exact inherited.inside ih read holds

end Description

/-! ### What one read does -/

/-- The event says that an annotation was asked, or it is left by the inspector, when it finds a
method or when it calls one. -/
inductive Event.Of (i : Inspector) : Event → Prop
  | asked (type accessor : String) : Of i (.asked type accessor)
  | resolve {t : LiveType} {h : Handle} {e : Event} (left : e ∈ (i.resolve t h).trace) : Of i e
  | invoke {m : LiveMethod} {o : Instance} {e : Event} (left : e ∈ (i.invoke m o).trace) : Of i e

namespace Inspector

/-- Whatever method the inspector finds for an accessor of this name, it denies access to it. -/
def Denies (i : Inspector) (n : String) : Prop :=
  ∀ t h m o, h.name = n → (i.resolve t h).result = .ok m →
    (i.invoke m o).result = .error (.accessDenied m.text)

/-- The inspector leaves an event for every accessor that it finds a method for, or does not. -/
def RecordsQuestions (i : Inspector) (event : LiveType → Handle → Event) : Prop :=
  ∀ t h, event t h ∈ (i.resolve t h).trace

/-- The inspector leaves an event for every method that it is to call. -/
def RecordsCalls (i : Inspector) (event : LiveMethod → Event) : Prop :=
  ∀ m o, event m ∈ (i.invoke m o).trace

end Inspector

namespace Live

variable {l : Live} {h : Handle}

/-- **When a live annotation answers**: its type owns the accessor, and the inspector finds a method
and gets an output from it. -/
theorem get_eq_ok_iff {v : Value} :
    (l.get h).result = .ok v ↔ h.owner = l.object.type.name ∧
      ∃ m, (l.inspector.resolve l.object.type h).result = .ok m ∧
        ∃ o, (l.inspector.invoke m l.object).result = .ok o ∧
          (l.inspector.normalize o).value = v := by
  rw [Live.get]
  split
  · next own =>
    simp only [Eval.result_bind_eq_ok, Eval.result_record, Eval.result_ofTraced, Except.ok.injEq,
      exists_const, own, true_and]
  · next other => simp [other]

variable (own : h.owner = l.object.type.name)
include own

/-- Where a method is found, it is called. -/
theorem result_get_of_found {m : LiveMethod}
    (found : (l.inspector.resolve l.object.type h).result = .ok m) :
    (l.get h).result =
      (l.inspector.invoke m l.object).result.map fun o ↦ (l.inspector.normalize o).value := by
  rw [Live.get, if_pos own, Eval.result_bind_of_eq_ok (Eval.result_record _),
    Eval.result_bind_of_eq_ok found, Eval.result_bind]
  cases (l.inspector.invoke m l.object).result <;> rfl

/-- A read leaves what the inspector leaves when it finds the method, when it calls it and when it
makes a value of the output. -/
theorem trace_get :
    (l.get h).trace = .asked l.object.type.name h.text ::
      ((l.inspector.resolve l.object.type h).trace ++
        match (l.inspector.resolve l.object.type h).result with
        | .ok m => (l.inspector.invoke m l.object).trace ++
          match (l.inspector.invoke m l.object).result with
          | .ok o => (l.inspector.normalize o).trace
          | .error _ => []
        | .error _ => []) := by
  rw [Live.get, if_pos own, Eval.trace_bind, Eval.result_record, Eval.trace_bind]
  cases (l.inspector.resolve l.object.type h).result with
  | error e => rfl
  | ok m =>
    simp only [Eval.trace_record, List.singleton_append, Eval.trace_bind]
    cases (l.inspector.invoke m l.object).result with
    | error e => rfl
    | ok o => simp only [Eval.trace_ofTraced]

end Live

/-- A read of a live annotation does nothing but by its inspector. -/
theorem Live.get_leaves {l : Live} (keeps : l.inspector.PassesOn) (h : Handle) :
    (l.get h).Leaves (Event.Of l.inspector) := by
  rw [Live.get]
  split
  · refine .bind (.record (.asked _ _)) fun _ _ ↦ .bind (fun _ left ↦ .resolve left) fun m _ ↦ ?_
    refine .bind (fun _ left ↦ .invoke left) fun o _ ↦ .ofTraced ?_
    rw [keeps o]
    exact .pure _
  · exact .throw _

/-- Neither does any other question about annotations that are read with the inspector. -/
theorem Part.watched_readWith {i : Inspector} (keeps : i.PassesOn) :
    Watched (ReadWith i) (Event.Of i) where
  toInherited := inherited_readWith keeps
  leaves l read h := by
    obtain rfl : l.inspector = i := read
    exact l.get_leaves keeps h

/-! ### Policies -/

/-- What is found for a handle has the handle's name. -/
theorem LiveType.name_of_resolve {t : LiveType} {h : Handle} {m : LiveMethod}
    (found : t.resolve h = .ok m) : m.name = h.name := by
  have byName : t.resolveByName h = .ok m → m.name = h.name := by
    intro found
    rw [resolveByName] at found
    split at found
    · next m' hm' =>
      cases found
      exact (parameters_of_accessor? hm').2.1
    · cases found
  cases h with
  | stated o n k => exact byName found
  | live m' =>
    rw [resolve] at found
    split at found
    · cases found
      rfl
    · exact byName found

namespace Policy

variable {p : Policy}

/-- The name of the accessor that is read. -/
theorem name_redirect (p : Policy) (h : Handle) :
    (p.redirect h).name = (p.aliases.lookup h.name).getD h.name := by
  rw [redirect]
  cases p.aliases.lookup h.name <;> rfl

/-- A policy denies the names that it refuses, and those that are read in place of others by
refused ones. -/
theorem denies {n : String} (refused : (p.aliases.lookup n).getD n ∈ p.refused) :
    p.inspector.Denies n := by
  intro t h m o name found
  obtain ⟨-, -, found⟩ := Eval.result_bind_eq_ok.1 found
  have hm : m.name ∈ p.refused := by
    rw [LiveType.name_of_resolve found, name_redirect, name]
    exact refused
  show (p.note _ >>= fun _ ↦ if p.refused.contains m.name then _ else _ : Eval Output).result = _
  have noted : (p.note ("invoke " ++ m.text)).result = .ok () := by
    rw [note]
    split <;> rfl
  rw [Eval.result_bind_of_eq_ok noted, if_pos (List.contains_iff_mem.2 hm)]
  rfl

private theorem mem_trace_note_bind {α : Type} (audited : p.audited = true) (text : String)
    (f : Unit → Eval α) : .noted text ∈ (p.note text >>= f).trace := by
  rw [note, if_pos audited, Eval.trace_bind]
  exact List.mem_append_left _ (List.mem_singleton.2 rfl)

theorem recordsQuestions (audited : p.audited = true) :
    p.inspector.RecordsQuestions fun t h ↦ .noted ("resolve " ++ h.text ++ " on " ++ t.name) :=
  fun _ _ ↦ mem_trace_note_bind audited _ _

theorem recordsCalls (audited : p.audited = true) :
    p.inspector.RecordsCalls fun m ↦ .noted ("invoke " ++ m.text) :=
  fun _ _ ↦ mem_trace_note_bind audited _ _

end Policy

/-! ### All that is found -/

namespace Inspector

/-- The object is in the hands of the inspector, as far as it is read with it.

* Under a name that the inspector denies nothing is answered (`silent`); and if the type of the
  object owns the accessor and a method is found for it, access to that method is denied.
* If the type owns the accessor, then the question is recorded, and so is the call if a method is
  found. Any other accessor is reported missing, and nothing is done.
* Nothing is done on the way to an answer but by the inspector, whatever the question. -/
structure Governs (i : Inspector) (o : Instance) : Prop where
  silent : ∀ h v, i.Denies h.name → (Live.get ⟨o, i⟩ h).result ≠ .ok v
  denied : ∀ h m, i.Denies h.name → h.owner = o.type.name → (i.resolve o.type h).result = .ok m →
    (Live.get ⟨o, i⟩ h).result = .error (.accessDenied m.text)
  question : ∀ event, i.RecordsQuestions event → ∀ h, h.owner = o.type.name →
    event o.type h ∈ (Live.get ⟨o, i⟩ h).trace
  call : ∀ event, i.RecordsCalls event → ∀ h m, h.owner = o.type.name →
    (i.resolve o.type h).result = .ok m → event m ∈ (Live.get ⟨o, i⟩ h).trace
  missing : ∀ h, h.owner ≠ o.type.name →
    Live.get ⟨o, i⟩ h = throw (.accessorNotFound o.type.name h.text)
  get : ∀ h, (Live.get ⟨o, i⟩ h).Leaves (Event.Of i)
  hash : ∀ limit, ((Description.live ⟨o, i⟩).hash limit).Leaves (Event.Of i)
  detach : ∀ limit, ((Description.live ⟨o, i⟩).detach limit).Leaves (Event.Of i)
  render : ∀ limit, ((Description.live ⟨o, i⟩).render limit).Leaves (Event.Of i)
  write : ∀ limit, ((Description.live ⟨o, i⟩).write limit).Leaves (Event.Of i)
  /-- The other annotation is one of which all live parts are read with the inspector too. -/
  equal : ∀ limit x, (Part.ofDescription x).Throughout (Part.ReadWith i) →
    ((Description.live ⟨o, i⟩).equal limit x).Leaves (Event.Of i) ∧
      (x.equal limit (.live ⟨o, i⟩)).Leaves (Event.Of i)

variable {i : Inspector} (keeps : i.PassesOn)
include keeps

/-- An object is in the hands of the inspector that it is read with. -/
theorem governs (o : Instance) : i.Governs o := by
  have read : (Part.ofDescription (.live ⟨o, i⟩)).Throughout (Part.ReadWith i) :=
    Part.throughout_live_iff.2 rfl
  have watched := Part.watched_readWith keeps
  exact {
    silent := by
      intro h v denies read
      obtain ⟨-, m, found, output, called, -⟩ := Live.get_eq_ok_iff.1 read
      rw [denies _ h m o rfl found] at called
      cases called
    denied := by
      intro h m denies own found
      rw [Live.result_get_of_found own found, denies _ h m o rfl found]
      rfl
    question := by
      intro event records h own
      rw [Live.trace_get own]
      exact .tail _ (List.mem_append_left _ (records _ h))
    call := by
      intro event records h m own found
      rw [Live.trace_get own, found]
      exact .tail _ (List.mem_append_right _ (List.mem_append_left _ (records m o)))
    missing := fun h other ↦ if_neg other
    get := watched.get read
    hash := watched.hash read
    detach := watched.detach read
    render := watched.render read
    write := watched.write read
    equal := fun limit x hx ↦ ⟨watched.equal read hx limit, watched.equal hx read limit⟩ }

/-- **Whatever is found is inspected**: it is live, read with the inspector of the annotation that
it is found from, and so it is in the hands of this inspector. -/
theorem inspected_of_finds {o : Instance} {e : Description}
    (finds : (Description.live ⟨o, i⟩).Finds e) : ∃ o', e = .live ⟨o', i⟩ ∧ i.Governs o' := by
  have root : (Part.ofDescription (.live ⟨o, i⟩)).Throughout (Part.LiveWith i) :=
    Part.throughout_live_iff.2 rfl
  have found := finds.throughout (Part.inherited_liveWith keeps) root
  obtain ⟨o', rfl⟩ := Description.exists_live_of_liveWith found.self
  exact ⟨o', rfl, governs keeps o'⟩

end Inspector

/-! ### A crate -/

namespace Policy

/-- Takes notes of everything, and refuses the depths of endless annotations. -/
def warden : Policy where
  audited := true
  refused := ["depth"]
  failing := []
  aliases := []
  plainNested := false

/-- The type of the crates, which hold endless annotations in rows. -/
def crateType : LiveType :=
  .ofMethods "com.example.Crate"
    [.accessor "rows" (.array (.array (.nested "com.example.Loop"))) .recorded]

/-- A crate with one row. -/
def crate : Instance :=
  .record crateType [("rows", .ok (.array [.objects [.loop ⟨0⟩, .loop ⟨5⟩]]))]

/-- The endless annotation after the one in the crate is still in the warden's hands. -/
theorem inspected_of_finds_crate :
    ∃ e, (Description.live ⟨crate, warden.inspector⟩).Finds e ∧
      (e.get (.stated "com.example.Loop" "depth" .int)).result =
        .error (.accessDenied "com.example.Loop.depth()") ∧
      .noted "resolve com.example.Loop.depth() on com.example.Loop" ∈
        (e.get (.stated "com.example.Loop" "depth" .int)).trace ∧
      .noted "invoke com.example.Loop.next()" ∈
        (e.get (.stated "com.example.Loop" "next" .int)).trace := by
  have first : (Description.live ⟨crate, warden.inspector⟩).Yields
      (.live ⟨.loop ⟨5⟩, warden.inspector⟩) :=
    ⟨.stated "com.example.Crate" "rows" .int, _, rfl,
      .array List.mem_cons_self (.array (.tail _ List.mem_cons_self) (.nested _))⟩
  have second : (Description.live ⟨.loop ⟨5⟩, warden.inspector⟩).Yields
      (.live ⟨.loop ⟨6⟩, warden.inspector⟩) :=
    ⟨.stated "com.example.Loop" "next" .int, _, rfl, .nested _⟩
  have finds := (Relation.ReflTransGen.single first).tail second
  obtain ⟨o, heq, governs⟩ := Inspector.inspected_of_finds (passesOn rfl) finds
  cases heq
  have denies : warden.inspector.Denies "depth" := denies (List.mem_singleton.2 rfl)
  have called :=
    governs.call _ (recordsCalls rfl) (.stated "com.example.Loop" "next" .int) _ rfl rfl
  exact ⟨_, finds, governs.denied (.stated "com.example.Loop" "depth" .int) _ denies rfl rfl,
    governs.question _ (recordsQuestions rfl) _ rfl, called⟩

end Policy

end Annotations
