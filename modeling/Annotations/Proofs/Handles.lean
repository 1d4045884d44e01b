import Annotations.Description.Draft
import Annotations.Description.Lookup
import Mathlib.Data.List.Nodup

/-!
# What a handle stands for

A handle identifies an accessor by the name of its owner and its own name; the method that a live
handle carries besides is meant to be a shortcut only. So two things are expected of
`Description.get`: it reports an unknown accessor exactly when the annotation's type does not
declare the accessor, and it gives the same for handles that are the same (`Description.Lawful`).

A live type takes a carried method at its word when the *name* of the method's owner is its own
name. Nothing makes that method one of the type's: a handle that carries a method of another type of
the same name is **foreign** (`LiveType.Foreign`), and then it is the other type's method that is
called. This module settles when the expectation is met:

* a handle that is not foreign is as good as its name (`resolve_eq_resolveByName`), and looking up
  by it is lawful (`get_eq_of_same`, `get_of_not_declares`, `get_ne_accessorNotFound`);
* a foreign handle is looked up lawfully exactly when the other type's method happens to give what
  the type's own accessor of that name gives (`lawful_of_foreign` is one direction).
-/

namespace Annotations

/-! ### Live types -/

namespace LiveType

/-- What a live type is made with: its methods are its own, and no two methods without parameters
have the same name. -/
structure Regular (t : LiveType) : Prop where
  owner_eq : ∀ m ∈ t.methods, m.owner = t.name
  distinct : (t.accessors.map LiveMethod.name).Nodup

/-- The handle carries a method that the type takes at its word and that is not one of its own. -/
def Foreign (t : LiveType) (h : Handle) : Prop :=
  ∃ m, h = .live m ∧ m.owner = t.name ∧ m.parameters = 0 ∧ m ∉ t.methods

/-- The method that a type has for an accessor, by the accessor's name alone. -/
def resolveByName (t : LiveType) (h : Handle) : Except ReadError LiveMethod :=
  match t.accessor? h.name with
  | some m => .ok m
  | none => .error (.accessorNotFound t.name h.text)

theorem mem_accessors {t : LiveType} {m : LiveMethod} :
    m ∈ t.accessors ↔ m ∈ t.methods ∧ m.parameters = 0 := by
  simp [accessors]

/-- A type made from methods owns them, whatever owner they had before. -/
theorem owner_ofMethods (name : String) (methods : List LiveMethod) :
    ∀ m ∈ (ofMethods name methods).methods, m.owner = (ofMethods name methods).name := by
  intro m hm
  obtain ⟨m', -, rfl⟩ := List.mem_map.1 hm
  rfl

/-- A type made from methods is regular when the names of its accessors are distinct. -/
theorem regular_ofMethods {name : String} {methods : List LiveMethod}
    (distinct : ((ofMethods name methods).accessors.map LiveMethod.name).Nodup) :
    (ofMethods name methods).Regular :=
  ⟨owner_ofMethods name methods, distinct⟩

/-- Distinct accessors are found by their names. -/
theorem accessor?_of_mem {t : LiveType} (distinct : (t.accessors.map LiveMethod.name).Nodup)
    {m : LiveMethod} (hm : m ∈ t.accessors) : t.accessor? m.name = some m := by
  obtain ⟨hmem, hzero⟩ := mem_accessors.1 hm
  rcases hfound : t.accessor? m.name with - | m'
  · have hnone := List.find?_eq_none.1 hfound m hmem
    simp [hzero] at hnone
  · obtain ⟨hmem', hname, hzero'⟩ := parameters_of_accessor? hfound
    have hm' : m' ∈ t.accessors := mem_accessors.2 ⟨hmem', hzero'⟩
    rw [List.inj_on_of_nodup_map distinct hm' hm hname]

/-- **A handle that is not foreign is as good as its name.** -/
theorem resolve_eq_resolveByName {t : LiveType}
    (distinct : (t.accessors.map LiveMethod.name).Nodup) {h : Handle} (hf : ¬t.Foreign h) :
    t.resolve h = t.resolveByName h := by
  cases h with
  | stated o n k => rfl
  | live m =>
    by_cases hword : m.owner = t.name ∧ m.parameters = 0
    · -- Taken at its word, the method is one of the type's own, and its name finds it again.
      obtain ⟨howner, hzero⟩ := hword
      have hmem : m ∈ t.methods := by
        by_contra hnot
        exact hf ⟨m, rfl, howner, hzero, hnot⟩
      have hfound : t.accessor? m.name = some m :=
        accessor?_of_mem distinct (mem_accessors.2 ⟨hmem, hzero⟩)
      rw [resolve, resolveByName]
      simp only [Handle.name, howner, hzero, and_self, if_true, hfound]
    · show (if m.owner = t.name ∧ m.parameters = 0 then .ok m else t.resolveByName (.live m)) = _
      rw [if_neg hword]

theorem resolve_of_foreign {t : LiveType} {m : LiveMethod} (howner : m.owner = t.name)
    (hzero : m.parameters = 0) : t.resolve (.live m) = .ok m := by
  simp only [resolve, howner, hzero, and_self, if_true]

theorem accessorNames_describe (t : LiveType) :
    t.describe.accessorNames = t.accessors.map LiveMethod.name := by
  simp [TypeDecl.accessorNames, describe, Accessor.name, Accessor.handle, Handle.name]

/-- The declared type has an accessor of a name exactly when the live type has a method of that name
without parameters. -/
theorem mem_accessorNames_describe {t : LiveType} {n : String} :
    n ∈ t.describe.accessorNames ↔ ∃ m, t.accessor? n = some m := by
  rw [← Option.isSome_iff_exists, accessor?, List.find?_isSome]
  rw [accessorNames_describe, List.mem_map]
  simp [mem_accessors, and_left_comm, and_comm]

end LiveType

/-- A call never finds an accessor missing: it is denied, it fails, or it gives something. -/
theorem LiveMethod.invoke_ne_accessorNotFound (m : LiveMethod) (o : Instance) (t a : String) :
    (m.invoke o).result ≠ .error (.accessorNotFound t a) := by
  unfold LiveMethod.invoke
  cases m.visibility with
  | hidden => simp
  | visible =>
    rw [Eval.result_bind_of_eq_ok (Eval.result_record (.ran m))]
    cases m.call o <;> simp

/-! ### Declared types -/

namespace TypeDecl

/-- The accessors of the type are its own. -/
def Owned (t : TypeDecl) : Prop :=
  ∀ a ∈ t.accessors, a.owner = t.name

theorem declares_of_mem {t : TypeDecl} (owned : t.Owned) {a : Accessor} (ha : a ∈ t.accessors) :
    t.declares a.handle = true :=
  declares_iff.2 ⟨owned a ha, List.mem_map_of_mem ha⟩

/-- Distinct accessors are found by their names. -/
theorem accessor?_of_mem {t : TypeDecl} (distinct : t.accessorNames.Nodup) {a : Accessor}
    (ha : a ∈ t.accessors) : t.accessor? a.name = some a := by
  rcases hfound : t.accessor? a.name with - | b
  · have hnone := List.find?_eq_none.1 hfound a ha
    simp at hnone
  · have hname : b.name = a.name := by simpa using List.find?_some hfound
    have hb : b ∈ t.accessors := List.mem_of_find?_eq_some hfound
    rw [List.inj_on_of_nodup_map distinct hb ha hname]

theorem of_accessor?_eq_some {t : TypeDecl} {n : String} {a : Accessor}
    (h : t.accessor? n = some a) : a ∈ t.accessors ∧ a.name = n :=
  ⟨List.mem_of_find?_eq_some h, by simpa using List.find?_some h⟩

theorem exists_of_mem_accessorNames {t : TypeDecl} {n : String} (h : n ∈ t.accessorNames) :
    ∃ a ∈ t.accessors, t.accessor? n = some a ∧ a.name = n := by
  obtain ⟨a, ha⟩ := Option.isSome_iff_exists.1 (accessor?_isSome.2 h)
  obtain ⟨hmem, hname⟩ := of_accessor?_eq_some ha
  exact ⟨a, hmem, ha, hname⟩

end TypeDecl

/-- The accessors of a described type are its own. -/
theorem LiveType.Regular.owned_describe {t : LiveType} (ht : t.Regular) : t.describe.Owned := by
  intro a ha
  obtain ⟨m, hm, rfl⟩ := List.mem_map.1 ha
  exact ht.owner_eq m (mem_accessors.1 hm).1

/-- The accessors of a drafted type are its own. -/
theorem TypeDecl.owned_ofDrafts (name : String) (drafts : List AccessorDraft) :
    (TypeDecl.ofDrafts name drafts).Owned := by
  intro a ha
  obtain ⟨d, -, rfl⟩ := List.mem_map.1 ha
  rfl

/-! ### Annotations -/

/-- Every accessor that the type declares has a value. -/
def Stated.Filled (s : Stated) : Prop :=
  ∀ n ∈ s.type.accessorNames, ∃ v, s.values.lookup n = some v

namespace Handle

theorem text_eq_of_same {h g : Handle} (e : h.same g = true) : h.text = g.text := by
  obtain ⟨o, n⟩ := same_iff.1 e
  simp [text, o, n]

/-- The handle with the same identity that carries no method. -/
def bare (h : Handle) : Handle := .stated h.owner h.name h.kind

@[simp] theorem bare_same (h : Handle) : h.bare.same h = true :=
  same_iff.2 ⟨rfl, rfl⟩

end Handle

theorem LiveType.resolveByName_eq_of_same (t : LiveType) {h g : Handle} (e : h.same g = true) :
    t.resolveByName h = t.resolveByName g := by
  rw [resolveByName, resolveByName, Handle.text_eq_of_same e, (Handle.same_iff.1 e).2]

/-- Only a carried method can be foreign. -/
theorem LiveType.not_foreign_bare (t : LiveType) (h : Handle) : ¬t.Foreign h.bare := by
  rintro ⟨m, hm, -⟩
  cases hm

/-- A method of the type is not foreign to it. -/
theorem LiveType.not_foreign_of_mem {t : LiveType} {m : LiveMethod} (hm : m ∈ t.methods) :
    ¬t.Foreign (.live m) := by
  rintro ⟨m', hm', -, -, hnot⟩
  cases hm'
  exact hnot hm

namespace Description

/-- A live annotation is read plainly, and its type is made as types are. -/
def Plain : Description → Prop
  | stated _ => True
  | live l => l.inspector = .plain ∧ l.object.type.Regular

/-- A stated annotation has a value for every accessor that its type declares. -/
def Filled : Description → Prop
  | stated s => s.Filled
  | live _ => True

/-- The handle carries a method of another type than that of the object. -/
def Foreign : Description → Handle → Prop
  | stated _, _ => False
  | live l, h => l.object.type.Foreign h

theorem not_foreign_bare (d : Description) (h : Handle) : ¬d.Foreign h.bare := by
  cases d with
  | stated s => exact id
  | live l => exact l.object.type.not_foreign_bare h

/-- The accessors that an annotation's own type declares are not foreign to it. -/
theorem not_foreign_of_mem {d : Description} {a : Accessor} (ha : a ∈ d.type.accessors) :
    ¬d.Foreign a.handle := by
  cases d with
  | stated s => exact id
  | live l =>
    obtain ⟨m, hm, rfl⟩ := List.mem_map.1 ha
    exact LiveType.not_foreign_of_mem (LiveType.mem_accessors.1 hm).1

/-- How a live annotation that is read plainly answers, once the method is found. -/
private theorem result_get_live {l : Live} (plain : l.inspector = .plain) {h : Handle}
    (howner : h.owner = l.object.type.name) {r : Except ReadError LiveMethod}
    (hr : l.object.type.resolve h = r) :
    ((live l).get h).result =
      r >>= fun m ↦ (m.invoke l.object).result.map (Value.ofOutput .plain) := by
  simp only [get_live, Live.get, plain, howner, if_true]
  rw [Eval.result_bind_of_eq_ok (Eval.result_record _), Eval.result_bind]
  show (l.object.type.resolve h >>= _) = _
  rw [hr]
  cases r with
  | error e => rfl
  | ok m =>
    show (m.invoke l.object >>= _).result = (m.invoke l.object).result.map _
    rw [Eval.result_bind]
    cases (m.invoke l.object).result <;> rfl

/-- **Handles that are the same are answered the same**, unless one of them is foreign. -/
theorem get_eq_of_same {d : Description} (hd : d.Plain) {h g : Handle} (hh : ¬d.Foreign h)
    (hg : ¬d.Foreign g) (e : h.same g = true) : d.get h = d.get g := by
  obtain ⟨owner, name⟩ := Handle.same_iff.1 e
  have text := Handle.text_eq_of_same e
  cases d with
  | stated s =>
    simp only [get_stated, Stated.get, TypeDecl.declares, owner, name, text]
    rfl
  | live l =>
    obtain ⟨plain, regular⟩ := hd
    have found : l.object.type.resolve h = l.object.type.resolve g := by
      rw [LiveType.resolve_eq_resolveByName regular.distinct hh,
        LiveType.resolve_eq_resolveByName regular.distinct hg,
        LiveType.resolveByName_eq_of_same _ e]
    simp only [get_live, Live.get, owner, text, plain, Inspector.resolve_plain, found]

/-- **An accessor that the type does not declare is not found**, and the error names both. -/
theorem get_of_not_declares {d : Description} (hd : d.Plain) {h : Handle} (hh : ¬d.Foreign h)
    (undeclared : d.type.declares h = false) :
    (d.get h).result = .error (.accessorNotFound d.typeName h.text) := by
  cases d with
  | stated s =>
    have undeclared' : s.type.declares h = false := undeclared
    simp [Stated.get, undeclared', typeName, type]
  | live l =>
    obtain ⟨plain, regular⟩ := hd
    by_cases howner : h.owner = l.object.type.name
    · have hnone : l.object.type.accessor? h.name = none := by
        by_contra hsome
        obtain ⟨m, hm⟩ := Option.ne_none_iff_exists'.1 hsome
        have declared : l.object.type.describe.declares h = true :=
          TypeDecl.declares_iff.2 ⟨howner, LiveType.mem_accessorNames_describe.2 ⟨m, hm⟩⟩
        exact absurd (undeclared.symm.trans declared) (by simp)
      have found : l.object.type.resolve h =
          .error (.accessorNotFound l.object.type.name h.text) := by
        rw [LiveType.resolve_eq_resolveByName regular.distinct hh, LiveType.resolveByName, hnone]
      rw [result_get_live plain howner found]
      rfl
    · simp only [get_live, Live.get, howner, if_false, Eval.result_throw]
      rfl

/-- A live annotation that found a method does not report the accessor missing. -/
private theorem get_live_ne_accessorNotFound {l : Live} (plain : l.inspector = .plain) {h : Handle}
    (howner : h.owner = l.object.type.name) {m : LiveMethod} (hm : l.object.type.resolve h = .ok m)
    (t a : String) : ((live l).get h).result ≠ .error (.accessorNotFound t a) := by
  rw [result_get_live plain howner hm]
  have hne := m.invoke_ne_accessorNotFound l.object t a
  show (m.invoke l.object).result.map (Value.ofOutput .plain) ≠ _
  cases hr : (m.invoke l.object).result with
  | error e =>
    rw [hr] at hne
    simpa [Except.map] using hne
  | ok o => simp [Except.map]

/-- **A declared accessor is never reported missing.** It may be denied or fail, or it has a
value. -/
theorem get_ne_accessorNotFound {d : Description} (hd : d.Plain) (filled : d.Filled) {h : Handle}
    (declared : d.type.declares h = true) (t a : String) :
    (d.get h).result ≠ .error (.accessorNotFound t a) := by
  obtain ⟨howner, hname⟩ := TypeDecl.declares_iff.1 declared
  cases d with
  | stated s =>
    obtain ⟨v, hv⟩ := filled h.name hname
    rw [get_stated, Eval.result_ofExcept, Stated.get_eq_ok_iff.2 ⟨declared, hv⟩]
    simp
  | live l =>
    obtain ⟨plain, regular⟩ := hd
    -- Foreign or not, a method is found, and a method that is called does not report this error.
    by_cases hf : l.object.type.Foreign h
    · obtain ⟨m, rfl, hm, hzero, -⟩ := hf
      exact get_live_ne_accessorNotFound plain howner (LiveType.resolve_of_foreign hm hzero) t a
    · obtain ⟨m, hm⟩ := LiveType.mem_accessorNames_describe.1 hname
      have found : l.object.type.resolve h = .ok m := by
        rw [LiveType.resolve_eq_resolveByName regular.distinct hf, LiveType.resolveByName, hm]
      exact get_live_ne_accessorNotFound plain howner found t a

/-- A foreign handle is never reported missing either, whether its accessor is declared or not. -/
theorem get_ne_accessorNotFound_of_foreign {d : Description} (hd : d.Plain) {h : Handle}
    (hh : d.Foreign h) (t a : String) : (d.get h).result ≠ .error (.accessorNotFound t a) := by
  cases d with
  | stated s => exact hh.elim
  | live l =>
    obtain ⟨m, rfl, hm, hzero, -⟩ := hh
    have howner : (Handle.live m).owner = l.object.type.name := hm
    exact get_live_ne_accessorNotFound hd.1 howner (LiveType.resolve_of_foreign hm hzero) t a

/-- A declared accessor is answered as under its name. -/
theorem get_eq_named {d : Description} (hd : d.Plain) (owned : d.type.Owned) {h : Handle}
    (hh : ¬d.Foreign h) (declared : d.type.declares h = true) : d.get h = d.named h.name := by
  obtain ⟨howner, hname⟩ := TypeDecl.declares_iff.1 declared
  obtain ⟨a, ha, hfound, haname⟩ := TypeDecl.exists_of_mem_accessorNames hname
  have same : h.same a.handle = true :=
    Handle.same_iff.2 ⟨howner.trans (owned a ha).symm, haname.symm⟩
  rw [named, hfound]
  exact get_eq_of_same hd hh (not_foreign_of_mem ha) same

theorem named_of_not_mem {d : Description} {n : String} (hn : n ∉ d.type.accessorNames) :
    (d.named n).result = .error (.accessorNotFound d.typeName n) := by
  have hnone : d.type.accessor? n = none := by
    by_contra hsome
    obtain ⟨a, ha⟩ := Option.ne_none_iff_exists'.1 hsome
    exact hn (TypeDecl.accessor?_isSome.1 (Option.isSome_iff_exists.2 ⟨a, ha⟩))
  rw [named, hnone, Eval.result_throw]

/-- Only a live annotation has foreign handles, and its type is made as types are. -/
theorem owned_of_foreign {d : Description} (hd : d.Plain) {h : Handle} (hf : d.Foreign h) :
    d.type.Owned := by
  cases d with
  | stated s => exact hf.elim
  | live l => exact hd.2.owned_describe

theorem owner_of_foreign {d : Description} {h : Handle} (hf : d.Foreign h) :
    h.owner = d.type.name := by
  cases d with
  | stated s => exact hf.elim
  | live l =>
    obtain ⟨m, rfl, howner, -, -⟩ := hf
    exact howner

/-- What is expected of looking up by a handle. An accessor is reported missing exactly when the
type does not declare it, and what the handle is answered depends on its identity only: a handle of
the same identity that is not foreign is answered the same. -/
def Lawful (d : Description) (h : Handle) : Prop :=
  ((∃ t a, (d.get h).result = .error (.accessorNotFound t a)) ↔ d.type.declares h = false) ∧
    ∀ g, ¬d.Foreign g → g.same h = true → (d.get g).result = (d.get h).result

/-- A handle that is not foreign is looked up lawfully. -/
theorem lawful_of_not_foreign {d : Description} (hd : d.Plain) (filled : d.Filled) {h : Handle}
    (hh : ¬d.Foreign h) : d.Lawful h := by
  refine ⟨⟨?_, fun undeclared ↦ ⟨_, _, get_of_not_declares hd hh undeclared⟩⟩, fun g hg e ↦ ?_⟩
  · rintro ⟨t, a, missing⟩
    by_contra declared
    exact get_ne_accessorNotFound hd filled (by simpa using declared) t a missing
  · rw [get_eq_of_same hd hg hh e]

/-- A foreign handle that is answered as under its name has a declared accessor: an undeclared name
would be reported missing. -/
theorem declares_of_foreign {d : Description} (hd : d.Plain) {h : Handle} (hf : d.Foreign h)
    (agree : (d.get h).result = (d.named h.name).result) : d.type.declares h = true := by
  refine TypeDecl.declares_iff.2 ⟨owner_of_foreign hf, ?_⟩
  by_contra undeclared
  rw [named_of_not_mem undeclared] at agree
  exact get_ne_accessorNotFound_of_foreign hd hf _ _ agree

/-- A foreign handle that is answered as under its name is looked up lawfully. -/
theorem lawful_of_foreign {d : Description} (hd : d.Plain) {h : Handle} (hf : d.Foreign h)
    (agree : (d.get h).result = (d.named h.name).result) : d.Lawful h := by
  have declared := declares_of_foreign hd hf agree
  constructor
  · constructor
    · rintro ⟨t, a, missing⟩
      exact absurd missing (get_ne_accessorNotFound_of_foreign hd hf t a)
    · intro undeclared
      exact absurd (undeclared.symm.trans declared) (by simp)
  · intro g hg e
    obtain ⟨owner, name⟩ := Handle.same_iff.1 e
    obtain ⟨howner, hname⟩ := TypeDecl.declares_iff.1 declared
    have declared' : d.type.declares g = true :=
      TypeDecl.declares_iff.2 ⟨owner.trans howner, name ▸ hname⟩
    rw [agree, get_eq_named hd (owned_of_foreign hd hf) hg declared', name]

/-- **Looking up is lawful unless a foreign method gives something else.** For a handle that is not
foreign there is no condition at all, so any two such handles of one identity are answered alike. A
foreign handle is lawful exactly when the method that it carries gives what the annotation reports
under the name itself; under a name that the type does not declare, it never does. -/
theorem lawful_iff {d : Description} (hd : d.Plain) (filled : d.Filled) (h : Handle) :
    d.Lawful h ↔ (d.Foreign h → (d.get h).result = (d.named h.name).result) := by
  constructor
  · -- A lawful foreign handle is of a declared accessor, since it is never reported missing; then
    -- its bare form, which is not foreign, says what it has to be answered.
    rintro ⟨missing, alike⟩ hf
    have declared : d.type.declares h = true := by
      by_contra hno
      obtain ⟨t, a, hta⟩ := missing.2 (by simpa using hno)
      exact get_ne_accessorNotFound_of_foreign hd hf t a hta
    have bare : d.get h.bare = d.named h.name :=
      get_eq_named hd (owned_of_foreign hd hf) (d.not_foreign_bare h) declared
    rw [← alike h.bare (d.not_foreign_bare h) h.bare_same, bare]
  · intro agree
    by_cases hf : d.Foreign h
    · exact lawful_of_foreign hd hf (agree hf)
    · exact lawful_of_not_foreign hd filled hf

/-! ### A type and its namesake -/

/-- A type with one accessor. -/
def levelType : LiveType :=
  .ofMethods "com.example.Level" [.accessor "depth" .int (.fixed (.ok (.int 1)))]

/-- A method of another type of the same name, under the same name. -/
def namesakeDepth : LiveMethod :=
  { LiveMethod.accessor "depth" .int (.fixed (.ok (.int 2))) with owner := "com.example.Level" }

/-- A method of another type of the same name, under a name of its own. -/
def namesakeHeight : LiveMethod :=
  { LiveMethod.accessor "height" .int (.fixed (.ok (.int 5))) with owner := "com.example.Level" }

/-- An annotation of the type with one accessor. -/
def level : Description := .ofInstance (.record levelType [])

theorem plain_level : level.Plain :=
  ⟨rfl, LiveType.regular_ofMethods (by decide)⟩

theorem lawful_iff_level :
    level.Plain ∧ level.Filled ∧
      (level.Lawful (.live namesakeHeight) ↔
        (level.Foreign (.live namesakeHeight) →
          (level.get (.live namesakeHeight)).result = (level.named "height").result)) :=
  ⟨plain_level, trivial, lawful_iff plain_level trivial (.live namesakeHeight)⟩

/-- The namesake's methods are called: one gives a value for an accessor that is not declared, the
other gives another value than the handle of the same identity that carries no method. -/
theorem level_answers_namesake :
    level.Plain ∧
      level.type.declares (.live namesakeHeight) = false ∧
      (level.get (.live namesakeHeight)).result = .ok (.int 5) ∧
      (Handle.live namesakeDepth).same (.stated "com.example.Level" "depth" .int) = true ∧
      (level.get (.live namesakeDepth)).result = .ok (.int 2) ∧
      (level.get (.stated "com.example.Level" "depth" .int)).result = .ok (.int 1) :=
  ⟨plain_level, by decide, rfl, by decide, rfl, rfl⟩

end Description

end Annotations
