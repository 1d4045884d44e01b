import Annotations.Description.Nest
import Annotations.Proofs.Answers
import Annotations.Proofs.Drafts
import Annotations.Proofs.Frozen
import Annotations.Proofs.Limits
import Annotations.Proofs.Restate

/-!
# Writing under a limit

An annotation is meant to be written as its detached form is (`Description.WrittenAsDetached`):
writing fails where detaching fails, with the same error, and else gives the text of the detached
form. Then what is nested too deeply for the limit is not written, whether it is live or stated.

A live annotation is written so, because it is detached first. A stated one is not detached: it is
gone through level by level **without counting the levels**, and only the live annotations in it are
detached, each under the full limit.

* But for the limit this makes no difference: what detaching gives, an error or a form, writing
  gives as well, unless it is the report of the limit (`detachWithin_freeze_cutOff`).
* The limit is reported in writing only for the live annotations that an annotation consists of
  (`Part.freezing_failsExactly`). So too deep a nesting goes unreported when none of them is too
  deep on its own; stated annotations that hold no live ones are written to any depth.
-/

namespace Annotations

/-! ### What is written -/

/-- A type without live annotations in its default values, or a stated annotation of a type that
owns its accessors, with one value for each of their names. Stated annotations are made by drafting,
which includes reading them back, and by detaching; and they are made so. -/
def Part.WellMade : Part → Prop
  | type t => (Part.type t).Throughout NotLive
  | stated s => s.type.Owned ∧ s.Arranged
  | _ => True

/-- A stated annotation that a draft builds is well made when its type owns the accessors. -/
theorem Stated.wellMade_of {t : TypeDecl} {values : List (String × Value)} {s : Stated}
    (owned : t.Owned) (h : Stated.of t values = .ok s) : (Part.stated s).WellMade :=
  ⟨type_of h ▸ owned, arranged_of h⟩

/-- So is a detached one. -/
theorem Stated.wellMade_of_detachWithin {limit room : Nat} {d : Description} {s : Stated}
    (owned : d.type.Owned) (h : (d.detachWithin limit (room + 1)).result = .ok s) :
    (Part.stated s).WellMade :=
  ⟨(Description.of_detachWithin h).1 ▸ owned, Description.arranged_of_detachWithin h⟩

theorem Part.lenient_notLive : Lenient NotLive where
  value _ := trivial
  type _ := trivial

/-- A live part is read with an inspector that makes the usual values of outputs, and so are the
annotations in them. -/
def Part.ReadAsUsual : Part → Prop
  | live l => l.inspector.Usual
  | _ => True

/-- All that the annotation consists of is well made, and so are the values that are reported by it
and by the annotations that can be reached from it. -/
structure Description.Orderly (d : Description) : Prop where
  parts : (Part.ofDescription d).Throughout Part.WellMade
  answers : d.Everywhere fun e ↦ ∀ v, e.Reports v → (Part.value v).Throughout Part.WellMade

namespace Description.Orderly

variable {d : Description}

/-- An annotation in what is reported is orderly too. -/
theorem enclosed (orderly : d.Orderly) {v : Value} (reports : d.Reports v) {e : Description}
    (he : v.Holds e) : e.Orderly where
  parts := (orderly.answers.self v reports).of_contains (Part.contains_of_holds he)
  answers := orderly.answers.value reports e he

/-- Where outputs are taken as usual, only the parts have to be looked at: what a live annotation
answers is well made. -/
theorem of_usual (parts : (Part.ofDescription d).Throughout fun p ↦ p.WellMade ∧ p.ReadAsUsual) :
    d.Orderly := by
  have inherited : Part.Inherited fun p ↦ p.WellMade ∧ p.ReadAsUsual := by
    refine .of_usual ⟨fun _ ↦ ⟨trivial, trivial⟩,
      fun t ↦ ⟨Part.lenient_notLive.describe t, trivial⟩⟩ fun l ⟨_, usual⟩ ↦ ?_
    have usual : l.inspector.Usual := usual
    cases usual with
    | itself passes => exact ⟨_, passes, fun _ ↦ ⟨trivial, .itself passes⟩⟩
    | other passes usual => exact ⟨_, passes, fun _ ↦ ⟨trivial, usual⟩⟩
  refine ⟨fun p hp ↦ (parts p hp).1,
    (inherited.everywhere parts).mono fun e he v ⟨a, _, hv⟩ p hp ↦ ?_⟩
  exact (inherited.answer he hv p hp).1

end Description.Orderly

/-- The annotation is written as its detached form is: there is a text if there is a detached form,
and it is the text of that form; and the error in detaching is the error in writing. -/
structure Description.WrittenAsDetached (limit : Nat) (d : Description) : Prop where
  text : ∀ s, (d.detach limit).result = .ok s →
    ∃ text, ((stated s).write limit).result = .ok text ∧ (d.write limit).result = .ok text
  error : ∀ e, (d.detach limit).result = .error e → (d.write limit).result = .error e

/-! ### Detached forms hold no live annotations -/

section NotLive

open Annotations.Part

/-- Each element of a detached list is the detached form of one of the values. -/
theorem Value.exists_of_mem_detachAllBy {f : Description → Eval Stated}
    {vs ws : List Value} (h : (detachAllBy f vs).result = .ok ws) {w : Value} (hw : w ∈ ws) :
    ∃ v ∈ vs, (detachBy f v).result = .ok w := by
  have pairs := forall₂_of_detachAllBy h
  clear h
  induction pairs with
  | nil => cases hw
  | cons first _ ih =>
    rcases List.mem_cons.1 hw with rfl | hw
    · exact ⟨_, List.mem_cons_self, first⟩
    · obtain ⟨v, hv, detached⟩ := ih hw
      exact ⟨v, List.mem_cons_of_mem _ hv, detached⟩

/-- A detached value holds no live annotation when the detached annotations in it hold none. -/
private theorem Value.notLive_of_detachBy {f : Description → Eval Stated} {v w : Value}
    (made : (Part.value v).Throughout WellMade)
    (inner : ∀ d s, v.Holds d → (f d).result = .ok s → (Part.stated s).Throughout NotLive)
    (h : (detachBy f v).result = .ok w) : (Part.value w).Throughout NotLive := by
  induction v using array_induction generalizing w with
  | other v hv =>
    cases v with
    | type t =>
      cases h
      exact throughout_typed_iff.2 ⟨trivial, (throughout_typed_iff.1 made).2.self⟩
    | constant c =>
      cases h
      cases c with
      | stated t n =>
        exact throughout_constant_iff.2 ⟨trivial, (throughout_constant_iff.1 made).2.self⟩
      | live c => exact throughout_constant_iff.2 ⟨trivial, lenient_notLive.describe c.type⟩
    | nested d =>
      obtain ⟨s, hs, h⟩ := Eval.result_bind_eq_ok.1 h
      cases h
      exact throughout_nested_iff.2 ⟨trivial, inner d s (.nested d) hs⟩
    | array vs => exact absurd rfl (hv vs)
    | _ =>
      cases h
      exact (throughout_scalar_iff (by trivial)).2 trivial
  | array vs ih =>
    obtain ⟨ws, hws, h⟩ := Eval.result_bind_eq_ok.1 h
    cases h
    obtain ⟨made, elements⟩ := throughout_array_iff.1 made
    refine throughout_array_iff.2 ⟨trivial, fun w hw ↦ ?_⟩
    obtain ⟨v, hv, detached⟩ := exists_of_mem_detachAllBy hws hw
    exact ih v hv (elements v hv) (fun d s hd ↦ inner d s (.array hv hd)) detached

namespace Description

variable {d : Description}

/-- The type of an annotation that is well made holds no live annotation. -/
private theorem notLive_type (made : (ofDescription d).Throughout WellMade) :
    (Part.type d.type).Throughout NotLive := by
  cases d with
  | stated s => exact (throughout_stated_iff.1 made).2.1.self
  | live l => exact lenient_notLive.describe _

/-- **A detached form holds no live annotation.** -/
theorem notLive_of_detachWithin (orderly : d.Orderly) {limit room : Nat}
    {s : Stated} (h : (detachWithin limit room d).result = .ok s) :
    (Part.stated s).Throughout NotLive := by
  induction room generalizing d s with
  | zero => cases h
  | succ room ih =>
    obtain ⟨es, hes, h⟩ := Eval.result_bind_eq_ok.1 h
    cases h
    refine throughout_stated_iff.2 ⟨trivial, notLive_type orderly.parts, fun e he ↦ ?_⟩
    obtain ⟨a, ha, -, v, hv, detached⟩ := (of_detachOn hes).2 e (Entries.mem_of_mem_ofList he)
    have reports : d.Reports v := ⟨a, ha, hv⟩
    exact Value.notLive_of_detachBy (orderly.answers.self v reports)
      (fun e s he hs ↦ ih (orderly.enclosed reports he) hs) detached

end Description

end NotLive

/-! ### The same but for the limit -/

section CutOff

variable {α β γ : Type} {limit : Nat}

private theorem map_map {ε : Type} (r : Except ε α) (f : α → β) (g : β → γ) :
    (r.map f).map g = r.map fun a ↦ g (f a) := by
  cases r <;> rfl

private theorem result_bind_pure (x : Eval α) (g : α → β) :
    (x >>= fun a ↦ pure (g a)).result = x.result.map g := by
  rw [bind_pure_comp, Eval.result_map]

theorem CutOff.map {r s : Except ReadError α} (h : CutOff limit r s) (f : α → β) :
    CutOff limit (r.map f) (s.map f) := by
  rcases h with rfl | rfl
  · exact .inl rfl
  · exact .refl _

private theorem map_cons (x : Except ReadError α) (xs : Except ReadError (List α)) (f : α → γ) :
    (x >>= fun a ↦ xs >>= fun as ↦ pure (a :: as)).map (List.map f) =
      (x.map f >>= fun c ↦ xs.map (List.map f) >>= fun cs ↦ pure (c :: cs)) := by
  cases x <;> cases xs <;> rfl

/-- Lists that are made one element after the other are cut off at most where an element is. The
elements may differ in what is left out by `f` and `g`. -/
theorem CutOff.cons {x : Except ReadError α} {y : Except ReadError β}
    {xs : Except ReadError (List α)} {ys : Except ReadError (List β)} {f : α → γ} {g : β → γ}
    (first : CutOff limit (x.map f) (y.map g))
    (rest : CutOff limit (xs.map (List.map f)) (ys.map (List.map g))) :
    CutOff limit ((x >>= fun a ↦ xs >>= fun as ↦ pure (a :: as)).map (List.map f))
      ((y >>= fun b ↦ ys >>= fun bs ↦ pure (b :: bs)).map (List.map g)) := by
  rw [map_cons, map_cons]
  rcases first with cut | same
  · rw [cut]
    exact .inl rfl
  · rw [same]
    cases y.map g with
    | error e => exact .refl _
    | ok c =>
      rcases rest with cut | same
      · rw [cut]
        exact .inl rfl
      · rw [same]
        exact .refl _

/-- Entries that are found by their names are cut off at most where one of their values is. -/
theorem CutOff.mapM_find {g h : String → Except ReadError Value} {ns : List String}
    (found : ∀ n ∈ ns, CutOff limit ((g n).map Value.doc) ((h n).map Value.doc)) :
    CutOff limit ((ns.mapM (Entries.find g)).map entryDocs)
      ((ns.mapM (Entries.find h)).map entryDocs) := by
  have entries : entryDocs = List.map fun e ↦ (e.1, e.2.doc) := funext entryDocs_eq_map
  rw [entries]
  induction ns with
  | nil => exact .refl _
  | cons n ns ih =>
    obtain ⟨first, rest⟩ := List.forall_mem_cons.1 found
    rw [List.mapM_cons, List.mapM_cons]
    refine .cons ?_ (ih rest)
    rw [Entries.find, Entries.find, map_map, map_map]
    simpa only [map_map] using first.map fun j ↦ (n, j)

end CutOff

section Detached

open Annotations.Part

variable {limit : Nat}

private theorem Value.detachAllBy_freeze_cutOff {f : Description → Eval Stated} {vs : List Value}
    (h : ∀ v ∈ vs, CutOff limit ((detachBy f v).result.map Value.doc)
      ((v.freeze limit).result.map Value.doc)) :
    CutOff limit ((detachAllBy f vs).result.map (List.map Value.doc))
      ((freezeValues limit vs).result.map (List.map Value.doc)) := by
  induction vs with
  | nil => exact .refl _
  | cons v vs ih =>
    obtain ⟨first, rest⟩ := List.forall_mem_cons.1 h
    rw [detachAllBy, freezeValues]
    simp only [Eval.result_bind, Eval.result_pure]
    exact .cons first (ih rest)

/-- A value is written as its detached form is, but for the limit, if the annotations in it are. -/
private theorem Value.detachBy_freeze_cutOff {f : Description → Eval Stated} {v : Value}
    (made : (Part.value v).Throughout WellMade)
    (inner : ∀ d, v.Holds d → CutOff limit ((f d).result.map Stated.doc)
      ((d.freeze limit).result.map Stated.doc)) :
    CutOff limit ((detachBy f v).result.map Value.doc)
      ((v.freeze limit).result.map Value.doc) := by
  induction v using array_induction with
  | other v hv =>
    cases v with
    | type t =>
      have freeze : t.freeze limit = pure t :=
        freezes_of_notLive limit (throughout_typed_iff.1 made).2.self
      rw [Value.freeze, freeze, pure_bind]
      exact .refl _
    | constant c =>
      cases c with
      | stated t n =>
        have freeze : t.freeze limit = pure t :=
          freezes_of_notLive limit (throughout_constant_iff.1 made).2.self
        rw [Value.freeze, Constant.freeze, freeze, pure_bind, pure_bind]
        exact .refl _
      | live c =>
        -- The live constant is written as the stated one of its type and name.
        refine .inr (congrArg Except.ok ?_)
        simp [Value.doc, Constant.doc, Constant.detach, Constant.type, Constant.name,
          doc_describe]
    | nested d =>
      have same := (inner d (.nested d)).map (Doc.tagged .nested)
      rw [map_map, map_map] at same
      rw [detachBy, Value.freeze, result_bind_pure, result_bind_pure, map_map, map_map]
      exact same
    | array vs => exact absurd rfl (hv vs)
    | _ => exact .refl _
  | array vs ih =>
    have elements := (throughout_array_iff.1 made).2
    have all : CutOff limit ((detachAllBy f vs).result.map (List.map Value.doc))
        ((freezeValues limit vs).result.map (List.map Value.doc)) :=
      detachAllBy_freeze_cutOff fun v hv ↦
        ih v hv (elements v hv) fun d hd ↦ inner d (.array hv hd)
    have same := all.map fun js ↦ Doc.tagged .array (.array js)
    rw [map_map, map_map] at same
    rw [detachBy, Value.freeze, result_bind_pure, result_bind_pure, map_map, map_map]
    simpa only [Value.doc, valueDocs_eq_map] using same

namespace Stated

variable {s : Stated}

/-- What a stated annotation has under a name, read further; every declared name has a value. -/
def slot (r : Value → Except ReadError Value) (s : Stated) (n : String) : Except ReadError Value :=
  match s.values.lookup n with
  | some v => r v
  | none => .error (.accessorNotFound s.type.name n)

/-- The entries of an annotation are found by their names. -/
private theorem slot_of_mem (arranged : s.Arranged) {r : Value → Except ReadError Value}
    {e : String × Value} (he : e ∈ s.values) : s.slot r e.1 = r e.2 := by
  rw [slot, Entries.lookup_of_mem arranged.nodup he]

private theorem result_detachOn (made : s.type.Owned ∧ s.Arranged) {f : Value → Eval Value}
    {as : List Accessor} (own : as ⊆ s.type.accessors) :
    (Description.detachOn f (.stated s) as).result =
      (as.map Accessor.name).mapM (Entries.find (s.slot fun v ↦ (f v).result)) := by
  induction as with
  | nil => rfl
  | cons a as ih =>
    obtain ⟨ha, own⟩ := List.cons_subset.1 own
    obtain ⟨e, he, name⟩ := List.mem_map.1 (made.2.mem_names_iff.2 (List.mem_map_of_mem ha))
    have read : ((Description.stated s).get a.handle).result = .ok e.2 :=
      made.2.get_of_mem made.1 ha he name.symm
    rw [Description.detachOn, Eval.result_bind_of_eq_ok read, List.map_cons, List.mapM_cons,
      Entries.find, ← name, slot_of_mem made.2 he, ← ih own]
    simp only [Eval.result_bind, Eval.result_pure]
    cases (f e.2).result <;> rfl

private theorem result_freezeEntries {g : String → Except ReadError Value}
    {es : List (String × Value)} (found : ∀ e ∈ es, g e.1 = (e.2.freeze limit).result) :
    (freezeEntries limit es).result = (Entries.names es).mapM (Entries.find g) := by
  induction es with
  | nil => rfl
  | cons e es ih =>
    obtain ⟨n, v⟩ := e
    obtain ⟨first, rest⟩ := List.forall_mem_cons.1 found
    have first : g n = (v.freeze limit).result := first
    rw [freezeEntries, Entries.names_cons, List.mapM_cons, Entries.find, first, ← ih rest]
    simp only [Eval.result_bind, Eval.result_pure]
    cases (v.freeze limit).result <;> rfl

/-! Both forms of a stated annotation have the entries that are found by the names of its values. -/

private theorem doc_detachWithin (made : s.type.Owned ∧ s.Arranged) (room : Nat) :
    (Description.detachWithin limit (room + 1) (.stated s)).result.map Stated.doc =
      ((Entries.names s.values).mapM (Entries.find (s.slot fun v ↦
        (Value.detachBy (Description.detachWithin limit room) v).result))).map
          fun es ↦ Stated.doc ⟨s.type, es⟩ := by
  rw [Description.detachWithin, result_bind_pure, map_map, made.2, TypeDecl.accessorNames,
    ← Entries.ofList_mapM_find, ← result_detachOn made (List.Subset.refl _), map_map]
  rfl

private theorem doc_freeze (made : s.type.Owned ∧ s.Arranged)
    (type : (Part.type s.type).Throughout NotLive) :
    ((Description.stated s).freeze limit).result.map Stated.doc =
      ((Entries.names s.values).mapM (Entries.find (s.slot fun v ↦
        (v.freeze limit).result))).map fun es ↦ Stated.doc ⟨s.type, es⟩ := by
  have freeze : s.type.freeze limit = pure s.type := freezes_of_notLive limit type
  rw [← result_freezeEntries fun e he ↦ slot_of_mem made.2 he]
  obtain ⟨t, values⟩ := s
  rw [Description.freeze, Stated.freeze, freeze, pure_bind, result_bind_pure, map_map]

end Stated

/-- **But for the limit, an annotation is written as its detached form is.** -/
theorem Description.detachWithin_freeze_cutOff {room : Nat} (enough : room ≤ limit)
    {d : Description} (made : (ofDescription d).Throughout WellMade) :
    CutOff limit ((detachWithin limit room d).result.map Stated.doc)
      ((d.freeze limit).result.map Stated.doc) := by
  induction room generalizing d with
  | zero => exact .inl rfl
  | succ room ih =>
    cases d with
    | live l => exact (detachWithin_cutOff enough (live l)).map Stated.doc
    | stated s =>
      obtain ⟨own, type, values⟩ := throughout_stated_iff.1 made
      have own : s.type.Owned ∧ s.Arranged := own
      have same : ∀ n ∈ Entries.names s.values,
          CutOff limit ((s.slot (fun v ↦ (Value.detachBy (detachWithin limit room) v).result) n).map
            Value.doc) ((s.slot (fun v ↦ (v.freeze limit).result) n).map Value.doc) := by
        intro n hn
        obtain ⟨e, he, rfl⟩ := List.mem_map.1 hn
        rw [Stated.slot_of_mem own.2 he, Stated.slot_of_mem own.2 he]
        refine Value.detachBy_freeze_cutOff (values e he) fun d hd ↦ ih (by omega) ?_
        exact (values e he).of_contains (contains_of_holds hd)
      rw [Stated.doc_detachWithin own, Stated.doc_freeze own type.self]
      have written := (CutOff.mapM_find same).map fun js ↦
        Doc.object [("type", s.type.doc), ("values", .object js)]
      rw [map_map, map_map] at written
      exact written

end Detached

/-! ### What is reported -/

namespace Part

/-- The live annotation can be reached from the part. -/
def Uncovers (l : Live) : Part → Prop
  | value v => ∃ d, v.Holds d ∧ d.Reaches (.live l)
  | type _ => False
  | stated s => (Description.stated s).Reaches (.live l)
  | live l' => (Description.live l').Reaches (.live l)

/-- A live annotation that a well-made part consists of can be reached from it: it is no part of a
type. -/
private theorem uncovers_of_contains {l : Live} {p : Part} (made : p.Throughout WellMade)
    (h : p.Contains (.live l)) : p.Uncovers l := by
  induction p, made using throughout_rec with
  | scalar v made hv =>
    have notLive : (value v).Throughout NotLive := (throughout_scalar_iff hv).2 trivial
    exact (notLive _ h).elim
  | typed t made type _ =>
    have notLive : (value (.type t)).Throughout NotLive :=
      throughout_typed_iff.2 ⟨trivial, type.self⟩
    exact (notLive _ h).elim
  | constant t n made type _ =>
    have notLive : (value (.constant (.stated t n))).Throughout NotLive :=
      throughout_constant_iff.2 ⟨trivial, type.self⟩
    exact (notLive _ h).elim
  | liveConstant c made =>
    have notLive : (value (.constant (.live c))).Throughout NotLive :=
      throughout_liveConstant_iff.2 trivial
    exact (notLive _ h).elim
  | nested s made _ ih =>
    rcases contains_iff.1 h with heq | ⟨q, hq, h⟩
    · cases heq
    · obtain rfl := List.mem_singleton.1 hq
      exact ⟨_, .nested _, ih h⟩
  | liveNested l' made _ ih =>
    rcases contains_iff.1 h with heq | ⟨q, hq, h⟩
    · cases heq
    · obtain rfl := List.mem_singleton.1 hq
      exact ⟨_, .nested _, ih h⟩
  | array vs made ih =>
    rcases contains_iff.1 h with heq | ⟨q, hq, h⟩
    · cases heq
    · obtain ⟨v, hv, rfl⟩ := List.mem_map.1 hq
      obtain ⟨d, hd, reaches⟩ := (ih v hv).2 h
      exact ⟨d, .array hv hd, reaches⟩
  | type t made ih => exact made.self _ h
  | stated s made type _ ih =>
    rcases contains_iff.1 h with heq | ⟨q, hq, h⟩
    · cases heq
    · rcases List.mem_cons.1 hq with rfl | hq
      · exact (type.self _ h).elim
      · obtain ⟨e, he, rfl⟩ := List.mem_map.1 hq
        obtain ⟨d, hd, reaches⟩ := (ih e he).2 h
        have own : s.type.Owned ∧ s.Arranged := made.self
        obtain ⟨a, ha, name⟩ := List.mem_map.1 (own.2.mem_names_iff.1 (List.mem_map_of_mem he))
        exact reaches.head ⟨e.2, ⟨a, ha, own.2.get_of_mem own.1 ha he name⟩, hd⟩
  | live l' made =>
    rcases contains_iff.1 h with heq | ⟨q, hq, -⟩
    · cases heq
      exact .refl
    · cases hq

/-- **The limit is reported exactly for the live annotations that a part consists of**, when all
that they enclose can be read. -/
theorem freezing_failsExactly {p : Part} {limit : Nat}
    (readable : ∀ l, p.Contains (.live l) → (Description.live l).Everywhere Description.Readable) :
    Eval.FailsExactly (.recursionLimit limit)
      (∃ l, p.Contains (.live l) ∧ (Description.live l).HasChain limit) (p.freezing limit) := by
  induction p using Part.induction with
  | step p ih =>
    by_cases notLive : p.NotLive
    · have children : ∀ q ∈ p.children, Eval.FailsExactly (.recursionLimit limit)
          (∃ l, q.Contains (.live l) ∧ (Description.live l).HasChain limit) (q.freezing limit) :=
        fun q hq ↦ ih q hq fun l hl ↦ readable l ((contains_of_mem_children hq).trans hl)
      rw [freezing_eq_forM notLive]
      refine Eval.FailsExactly.congr (.forM children) ?_
      constructor
      · rintro ⟨q, hq, l, hl, chain⟩
        exact ⟨l, (contains_of_mem_children hq).trans hl, chain⟩
      · rintro ⟨l, hl, chain⟩
        rcases contains_iff.1 hl with rfl | ⟨q, hq, hl⟩
        · exact notLive.elim
        · exact ⟨q, hq, l, hl, chain⟩
    · cases p with
      | live l =>
        rw [freezing, Description.detach, Description.silent_detachWithin]
        refine (Description.surveyWithin_failsExactly (readable l .refl) limit limit).congr ?_
        constructor
        · exact fun chain ↦ ⟨l, .refl, chain⟩
        · rintro ⟨l', hl', chain⟩
          rcases contains_iff.1 hl' with heq | ⟨q, hq, -⟩
          · cases heq
            exact chain
          · cases hq
      | _ => exact absurd trivial notLive

end Part

namespace Description

open Annotations.Part (WellMade ofDescription)

variable {d : Description} {limit : Nat}

private theorem reaches_of_contains (made : (ofDescription d).Throughout WellMade) {l : Live}
    (h : (ofDescription d).Contains (.live l)) : d.Reaches (.live l) := by
  have uncovers := Part.uncovers_of_contains made h
  cases d <;> exact uncovers

private theorem result_write (limit : Nat) (d : Description) :
    (d.write limit).result = (d.freeze limit).result.map fun s ↦ s.doc.write :=
  result_bind_pure _ _

/-- If the forms are the same but for how they are written, so are the texts. -/
private theorem writtenAsDetached_of_eq (orderly : d.Orderly)
    (same : (d.detach limit).result.map Stated.doc = (d.freeze limit).result.map Stated.doc) :
    d.WrittenAsDetached limit := by
  have write : (d.write limit).result = (d.detach limit).result.map fun s ↦ s.doc.write := by
    rw [result_write, ← map_map _ Stated.doc Doc.write, ← same, map_map]
  constructor
  · intro s detached
    have text := writeIn_of_notLive .standard limit (notLive_of_detachWithin orderly detached)
    exact ⟨s.doc.write, congrArg Eval.result text, by rw [write, detached]; rfl⟩
  · intro e detached
    rw [write, detached]
    rfl

/-- Unless detaching reports the limit, an annotation is written as its detached form is. -/
theorem writtenAsDetached_of_not_reported (orderly : d.Orderly)
    (notReported : (d.detach limit).result ≠ .error (.recursionLimit limit)) :
    d.WrittenAsDetached limit := by
  refine writtenAsDetached_of_eq orderly ?_
  refine (detachWithin_freeze_cutOff (Nat.le_refl limit) orderly.parts).resolve_left fun cut ↦ ?_
  change (d.detach limit).result.map Stated.doc = _ at cut
  cases detached : (d.detach limit).result with
  | error e =>
    rw [detached] at cut
    cases cut
    exact notReported detached
  | ok s =>
    rw [detached] at cut
    cases cut

/-- Writing reports the limit exactly for the live annotations that an annotation consists of. -/
theorem write_reports_limit_iff (made : (ofDescription d).Throughout WellMade)
    (readable : d.Everywhere Readable) (limit : Nat) :
    (d.write limit).result = .error (.recursionLimit limit) ↔
      ∃ l, (ofDescription d).Contains (.live l) ∧ (Description.live l).HasChain limit := by
  have freezing : Eval.FailsExactly (.recursionLimit limit) _ ((ofDescription d).freezing limit) :=
    Part.freezing_failsExactly fun l hl e he ↦
      readable e ((reaches_of_contains made hl).trans he)
  rw [freezing_ofDescription] at freezing
  rw [result_write]
  constructor
  · intro reported
    by_contra none
    obtain ⟨s, frozen⟩ := Eval.exists_result_of_silent (freezing.ends none)
    rw [frozen] at reported
    cases reported
  · intro tooDeep
    rw [Eval.result_eq_error_of_silent (freezing.fails tooDeep)]
    rfl

/-- **Writing and the limit.**

* An annotation is written as its detached form is, with the same text or the same error, exactly
  when writing it reports the limit if detaching does.
* A live annotation is always written so.
* If all that can be reached from an annotation can be read, then detaching reports the limit when
  it is nested too deeply for it, but writing only when it consists, among stated annotations, of a
  live one that is too deep on its own. -/
theorem writtenAsDetached_iff (orderly : d.Orderly) (limit : Nat) :
    (d.WrittenAsDetached limit ↔
      ((d.detach limit).result = .error (.recursionLimit limit) →
        (d.write limit).result = .error (.recursionLimit limit))) ∧
    ((∃ l, d = .live l) → d.WrittenAsDetached limit) ∧
    (d.Everywhere Readable →
      ((d.detach limit).result = .error (.recursionLimit limit) ↔ d.HasChain limit) ∧
      ((d.write limit).result = .error (.recursionLimit limit) ↔
        ∃ l, (ofDescription d).Contains (.live l) ∧ (Description.live l).HasChain limit)) := by
  refine ⟨⟨fun written ↦ written.error _, fun reported ↦ ?_⟩, ?_, fun readable ↦ ?_⟩
  · by_cases detached : (d.detach limit).result = .error (.recursionLimit limit)
    · constructor
      · intro s hs
        cases detached.symm.trans hs
      · intro e he
        cases detached.symm.trans he
        exact reported detached
    · exact writtenAsDetached_of_not_reported orderly detached
  · rintro ⟨l, rfl⟩
    exact writtenAsDetached_of_eq orderly rfl
  · exact ⟨(reports_limit_iff readable limit).2.1,
      write_reports_limit_iff orderly.parts readable limit⟩

/-! ### Chains of stated annotations -/

/-- A type without default values is well made. -/
private theorem wellMade_type {t : TypeDecl} (plain : ∀ a ∈ t.accessors, a.default? = none) :
    (Part.type t).Throughout fun p ↦ p.WellMade ∧ p.ReadAsUsual := by
  have alone {P : Part → Prop} (self : P (.type t)) : (Part.type t).Throughout P := by
    refine Part.throughout_type_iff.2 ⟨self, fun a ha v default ↦ ?_⟩
    cases (plain a ha).symm.trans default
  exact alone ⟨alone trivial, trivial⟩

theorem orderly_nestChain (n : Nat) : (stated (nestChain n)).Orderly := by
  let P : Part → Prop := fun p ↦ p.WellMade ∧ p.ReadAsUsual
  have link (next : List Stated) (links : ∀ s ∈ next, (Part.stated s).Throughout P) :
      (Part.stated (nestLink next)).Throughout P := by
    refine Part.throughout_stated_iff.2 ⟨⟨⟨TypeDecl.owned_ofDrafts _ _, rfl⟩, trivial⟩,
      wellMade_type (by simp [nestLink, nestType, TypeDecl.ofDrafts, AccessorDraft.on,
        Accessor.default?]), fun e he ↦ ?_⟩
    obtain rfl := List.mem_singleton.1 he
    refine Part.throughout_array_iff.2 ⟨⟨trivial, trivial⟩, fun v hv ↦ ?_⟩
    obtain ⟨s, hs, rfl⟩ := List.mem_map.1 hv
    exact Part.throughout_nested_iff.2 ⟨⟨trivial, trivial⟩, links s hs⟩
  have chain : (Part.stated (nestChain n)).Throughout P := by
    induction n with
    | zero => exact link [] (by simp)
    | succ n ih => exact link [nestChain n] (List.forall_mem_singleton.2 ih)
  exact .of_usual chain

/-- Two links are one too many for a limit of one, but they are written. -/
theorem two_links_written :
    (stated (nestChain 1)).Orderly ∧
    ((stated (nestChain 1)).detach 1).result = .error (.recursionLimit 1) ∧
    (∃ text, ((stated (nestChain 1)).write 1).result = .ok text) ∧
    ¬(stated (nestChain 1)).WrittenAsDetached 1 := by
  have detached : ((stated (nestChain 1)).detach 1).result = .error (.recursionLimit 1) := rfl
  have written : ∃ text, ((stated (nestChain 1)).write 1).result = .ok text := ⟨_, rfl⟩
  refine ⟨orderly_nestChain 1, detached, written, fun asDetached ↦ ?_⟩
  obtain ⟨text, written⟩ := written
  cases written.symm.trans (asDetached.error _ detached)

/-- A box with an endless annotation in it. -/
def boxedLoop : Description :=
  .stated ⟨.ofDrafts "com.example.Box" [⟨"content", .nested "com.example.Loop", none⟩],
    [("content", .nested (loopAt 0))]⟩

theorem orderly_boxedLoop : boxedLoop.Orderly := by
  refine .of_usual (Part.throughout_stated_iff.2 ⟨⟨⟨TypeDecl.owned_ofDrafts _ _, rfl⟩, trivial⟩,
    wellMade_type (by simp [TypeDecl.ofDrafts, AccessorDraft.on, Accessor.default?]),
    fun e he ↦ ?_⟩)
  obtain rfl := List.mem_singleton.1 he
  refine Part.throughout_iff.2 ⟨⟨trivial, trivial⟩, fun q hq ↦ ?_⟩
  obtain rfl := List.mem_singleton.1 hq
  exact Part.throughout_live_iff.2 ⟨trivial, .itself Inspector.passesOn_plain⟩

theorem readable_boxedLoop : boxedLoop.Everywhere Readable := by
  have values : boxedLoop.type.accessors.map (fun a ↦ (boxedLoop.get a.handle).result) =
      [Value.nested (loopAt 0)].map .ok := rfl
  exact everywhere_of_values _ (readable_of_values _ (TypeDecl.owned_ofDrafts _ _) values) values
    (by simpa using readable_loopAt 0)

/-- Two links are written as their detached form under a limit of two. The box is too, under every
limit: neither can its endless annotation be written, nor can the box be detached. -/
theorem writtenAsDetached_iff_boxedLoop :
    (stated (nestChain 1)).Orderly ∧ (stated (nestChain 1)).WrittenAsDetached 2 ∧
    boxedLoop.Orderly ∧ boxedLoop.Everywhere Readable ∧ boxedLoop.HasChain 2 ∧
    boxedLoop.WrittenAsDetached 2 := by
  have links : ((stated (nestChain 1)).detach 2).result ≠ .error (.recursionLimit 2) := nofun
  have encloses : boxedLoop.Encloses (loopAt 0) :=
    ⟨.nested (loopAt 0), ⟨_, List.mem_cons_self, rfl⟩, .nested _⟩
  have chain : boxedLoop.HasChain 2 := hasChain_succ_iff.2 ⟨loopAt 0, encloses, hasChain_loopAt 0 1⟩
  -- The loop is a part of the value, and the value is the one entry of the box.
  have loop : (ofDescription boxedLoop).Contains (.live ⟨.loop ⟨0⟩, .plain⟩) :=
    .head (.tail _ (.head _)) (Part.contains_of_mem_children (.head _))
  obtain ⟨iff, -, reports⟩ := writtenAsDetached_iff orderly_boxedLoop 2
  have written := (reports readable_boxedLoop).2.2 ⟨_, loop, hasChain_loopAt 0 2⟩
  exact ⟨orderly_nestChain 1,
    (writtenAsDetached_iff (orderly_nestChain 1) 2).1.2 fun detached ↦ absurd detached links,
    orderly_boxedLoop, readable_boxedLoop, chain, iff.2 fun _ ↦ written⟩

end Description

end Annotations
