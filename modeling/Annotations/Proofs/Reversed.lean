import Annotations.Proofs.Settled

/-!
# Comparing in the other direction

Whether two types declare the same accessors is decided by two checks that are not symmetric: their
lists are of the same length, and each accessor of the left type is declared by the right one. With
distinct names on the left side that is enough. Where a name is repeated there, the right type may
declare a name that the left one lacks; the comparison then succeeds in one direction and fails in
the other one (`Description.range_equal_one_way`).

So if a comparison succeeds, **the names of the left type are among those of the right one**, and
what is left open is whether there are more (`TypeDecl.sameNames_iff_of_subset`). The comparison in
the other direction has an answer, and it is `true` exactly if at every place where two annotations
are compared their types declare the same names (`Description.equal_swap_iff`).

A comparison asks both sides by the handles of its left side, and the swapped one by those of the
other. That this makes no difference is what is asked of two annotations at one place
(`Description.Indifferent`). It is true of settled ones by themselves, and of others in a registry.
-/

namespace Annotations

/-! ### Names of comparable types -/

namespace TypeDecl

/-- The two types declare accessors of the same names. -/
def SameNames (t u : TypeDecl) : Prop :=
  ∀ n, n ∈ t.accessorNames ↔ n ∈ u.accessorNames

variable {t u : TypeDecl}

theorem subset_of_comparable (h : t.comparable u = true) : t.accessorNames ⊆ u.accessorNames := by
  intro n hn
  obtain ⟨a, ha, rfl⟩ := List.mem_map.1 hn
  exact (declares_iff.1 (declares_of_comparable h ha)).2

theorem length_of_comparable (h : t.comparable u = true) :
    t.accessorNames.length = u.accessorNames.length := by
  simp only [comparable, sameAccessors, Bool.and_eq_true, beq_iff_eq] at h
  rw [accessorNames, accessorNames, List.length_map, List.length_map, h.2.1]

/-- Where one type has the names of the other, the names are the same if there are as many. -/
theorem sameNames_iff_of_subset (sub : t.accessorNames ⊆ u.accessorNames) :
    t.SameNames u ↔ t.accessorNames.eraseDups.length = u.accessorNames.eraseDups.length := by
  have sub' : t.accessorNames.eraseDups ⊆ u.accessorNames.eraseDups := by
    intro n hn
    exact List.mem_eraseDups.2 (sub (List.mem_eraseDups.1 hn))
  have subperm := (Entries.nodup_eraseDups t.accessorNames).subperm sub'
  constructor
  · intro same
    have sup : u.accessorNames.eraseDups ⊆ t.accessorNames.eraseDups := by
      intro n hn
      exact List.mem_eraseDups.2 ((same n).2 (List.mem_eraseDups.1 hn))
    exact le_antisymm subperm.length_le
      ((Entries.nodup_eraseDups u.accessorNames).subperm sup).length_le
  · intro length n
    have perm := subperm.perm_of_length_le (Nat.le_of_eq length.symm)
    rw [← List.mem_eraseDups, perm.mem_iff, List.mem_eraseDups]

/-- **Distinct names on the left side are enough.** -/
theorem sameNames_of_comparable (h : t.comparable u = true) (distinct : t.accessorNames.Nodup) :
    t.SameNames u := by
  have perm := (distinct.subperm (subset_of_comparable h)).perm_of_length_le
    (Nat.le_of_eq (length_of_comparable h).symm)
  exact fun n ↦ perm.mem_iff

/-- Comparable types are comparable in the other direction if they declare the same names. -/
theorem comparable_swap_iff (owned : u.Owned) (h : t.comparable u = true) :
    u.comparable t = true ↔ t.SameNames u := by
  constructor
  · intro h' n
    exact ⟨fun hn ↦ subset_of_comparable h hn, fun hn ↦ subset_of_comparable h' hn⟩
  · intro same
    simp only [comparable, sameAccessors, Bool.and_eq_true, beq_iff_eq, List.all_eq_true] at h ⊢
    obtain ⟨name, length, -⟩ := h
    refine ⟨name.symm, length.symm, fun b hb ↦ declares_iff.2 ⟨?_, ?_⟩⟩
    · exact (owned b hb).trans name.symm
    · exact (same b.name).2 (List.mem_map_of_mem hb)

end TypeDecl

/-! ### Comparisons that have an answer -/

namespace Value

variable {f : Description → Description → Eval Bool}

private theorem exists_allEqualBy {vs ws : List Value}
    (h : ∀ v w, (v, w) ∈ vs.zip ws → ∃ b, (equalBy f v w).result = .ok b) :
    ∃ b, (allEqualBy f vs ws).result = .ok b := by
  induction vs generalizing ws with
  | nil => exact ⟨true, by simp [allEqualBy]⟩
  | cons v vs ih =>
    cases ws with
    | nil => exact ⟨true, by simp [allEqualBy]⟩
    | cons w ws =>
      obtain ⟨b, first⟩ := h v w (by simp)
      rw [allEqualBy, Eval.result_bind_of_eq_ok first]
      cases b with
      | false => exact ⟨false, rfl⟩
      | true => exact ih fun x y hxy ↦ h x y (by simp [hxy])

/-- The comparison of values that are alike has an answer if those of the annotations in them
have. -/
theorem exists_equalBy {R : Description → Description → Prop}
    (inner : ∀ d e, R d e → ∃ b, (f d e).result = .ok b) {v w : Value} (h : Alike R v w) :
    ∃ b, (equalBy f v w).result = .ok b := by
  induction h with
  | nested related => exact inner _ _ related
  | array length _ ih =>
    rw [equalBy, if_pos length]
    exact exists_allEqualBy ih
  | _ => exact ⟨_, rfl⟩

/-- The annotations that are compared stand at places of the two values. -/
theorem Alike.leading {R : Description → Description → Prop} {v w : Value} (h : Alike R v w) :
    Alike (fun d e ↦ R d e ∧ ∃ p, Leads v w p (.nested d) (.nested e)) v w := by
  induction h with
  | type name => exact .type name
  | constant same => exact .constant same
  | nested related => exact .nested ⟨related, [], .here _ _⟩
  | array length _ ih =>
    refine .array length fun x y hxy ↦ (ih x y hxy).mono ?_
    rintro d e ⟨related, p, leads⟩
    obtain ⟨i, step⟩ := exists_step_of_mem_zip hxy
    exact ⟨related, i :: p, .step step leads⟩
  | _ => constructor

/-- Whatever is true of all pairs of annotations at places of the two values. -/
def Beside (P : Description → Description → Prop) (x y : Value) : Prop :=
  ∀ p d e, Leads x y p (.nested d) (.nested e) → P d e

variable {P : Description → Description → Prop} {x y u w : Value} {i : Nat}

theorem Beside.here {l r : Description} (h : Beside P (.nested l) (.nested r)) : P l r :=
  h [] l r (.here _ _)

theorem Beside.step (h : Beside P x y) (step : Step i x y u w) : Beside P u w :=
  fun p d e leads ↦ h (i :: p) d e (.step step leads)

theorem Beside.leads {p : Place} (h : Beside P x y) (leads : Leads x y p u w) : Beside P u w := by
  induction leads with
  | here => exact h
  | step first _ ih => exact ih (h.step first)

end Value

namespace Description

private theorem exists_agreeOn {eqv : Value → Value → Eval Bool} {l r : Description}
    {as : List Accessor}
    (h : ∀ a ∈ as, ∃ x y, (l.get a.handle).result = .ok x ∧ (r.get a.handle).result = .ok y ∧
      ∃ b, (eqv x y).result = .ok b) : ∃ b, (agreeOn eqv l r as).result = .ok b := by
  induction as with
  | nil => exact ⟨true, rfl⟩
  | cons a as ih =>
    obtain ⟨⟨x, y, hx, hy, b, hb⟩, rest⟩ := List.forall_mem_cons.1 h
    rw [agreeOn, Eval.result_bind_of_eq_ok hx, Eval.result_bind_of_eq_ok hy,
      Eval.result_bind_of_eq_ok hb]
    cases b with
    | false => exact ⟨false, rfl⟩
    | true => exact ih rest

/-! ### Handles of either side -/

/-- The accessors of the right type are its own, and neither of the two annotations minds which of
the two types a handle is from. -/
structure Indifferent (l r : Description) : Prop where
  owned : r.type.Owned
  left : ∀ a ∈ l.type.accessors, ∀ b ∈ r.type.accessors, a.handle.same b.handle = true →
    (l.get a.handle).result = (l.get b.handle).result
  right : ∀ a ∈ l.type.accessors, ∀ b ∈ r.type.accessors, a.handle.same b.handle = true →
    (r.get a.handle).result = (r.get b.handle).result

/-- Settled annotations are indifferent. -/
theorem Settled.indifferent {l r : Description} (hl : l.Settled) (hr : r.Settled) :
    l.Indifferent r := by
  obtain ⟨s, rfl, -⟩ := hl.exists_stated
  obtain ⟨t, rfl, owned, -⟩ := hr.exists_stated
  refine ⟨owned, fun a ha b _ same ↦ ?_, fun a _ b hb same ↦ ?_⟩
  · rw [get_eq_of_same (d := .stated s) trivial (not_foreign_of_mem ha) id same]
  · rw [get_eq_of_same (d := .stated t) trivial id (not_foreign_of_mem hb) same]

/-- In a registry any two annotations are indifferent. -/
theorem indifferent_of_admits {w : Registry} {l r : Description} (hl : w.Admits l)
    (hr : w.Admits r) : l.Indifferent r where
  owned := hr.type.owned
  left a ha b hb same := by
    rw [get_eq_of_same hl.proper.plain (not_foreign_of_mem ha)
      (Registry.not_foreign (hr.type.knows b hb) hl) same]
  right a ha b hb same := by
    rw [get_eq_of_same hr.proper.plain (Registry.not_foreign (hl.type.knows a ha) hr)
      (not_foreign_of_mem hb) same]

end Description

/-- The annotations at all places of settled values are indifferent. -/
theorem Value.beside_indifferent {x y : Value} (hx : x.Everywhere Description.Settled)
    (hy : y.Everywhere Description.Settled) : Beside Description.Indifferent x y := by
  intro p d e leads
  obtain ⟨hd, he⟩ := leads.settled hx hy
  exact (everywhere_nested_iff.1 hd).self.indifferent (everywhere_nested_iff.1 he).self

namespace Registry

variable {w : Registry}

/-- What is answered to a known handle is reported under an accessor. -/
theorem Admits.reports_of_get {d : Description} (hd : w.Admits d) {h : Handle} (known : w.Knows h)
    {v : Value} (read : (d.get h).result = .ok v) : d.Reports v := by
  by_cases declared : d.type.declares h = true
  · rw [hd.get_eq_named known declared] at read
    exact Description.reports_of_named read
  · rw [Description.get_of_not_declares hd.proper.plain (not_foreign known hd)
      (by simpa using declared)] at read
    cases read

/-- In a registry the annotations at all places of two values are indifferent. -/
theorem beside_indifferent {x y : Value} (hx : x.Everywhere w.Admits) (hy : y.Everywhere w.Admits) :
    Value.Beside Description.Indifferent x y := by
  intro p d e leads
  generalize hu : Value.nested d = u, hw : Value.nested e = v at leads
  induction leads with
  | here =>
    subst hu hw
    exact Description.indifferent_of_admits (Value.everywhere_nested_iff.1 hx).self
      (Value.everywhere_nested_iff.1 hy).self
  | step first _ ih =>
    cases first with
    | @accessor l r a _ _ own left right =>
      have hl := Value.everywhere_nested_iff.1 hx
      have hr := Value.everywhere_nested_iff.1 hy
      have ha := List.mem_of_getElem? own
      have reports := hr.self.reports_of_get (hl.self.type.knows a ha) right
      exact ih (hl.value ⟨a, ha, left⟩) (hr.value reports) hu hw
    | element left right =>
      exact ih (Value.everywhere_array_iff.1 hx _ (List.mem_of_getElem? left))
        (Value.everywhere_array_iff.1 hy _ (List.mem_of_getElem? right)) hu hw

end Registry

namespace Description

variable {limit room : Nat} {l r : Description}

/-- What a comparison has found under an accessor of the left side stands under every accessor of
the right side, if the names are the same. -/
private theorem exists_step_of_equal (indifferent : l.Indifferent r)
    (names : l.type.SameNames r.type)
    (h : (equalWithin limit (room + 1) l r).result = .ok true) {b : Accessor}
    (hb : b ∈ r.type.accessors) :
    ∃ i x y, Value.Step i (.nested l) (.nested r) x y ∧ (l.get b.handle).result = .ok x ∧
      (r.get b.handle).result = .ok y ∧
      (Value.equalBy (equalWithin limit room) x y).result = .ok true := by
  obtain ⟨comparable, values⟩ := equalWithin_succ_iff.1 h
  obtain ⟨a, ha, name⟩ := List.mem_map.1 ((names b.name).2 (List.mem_map_of_mem hb))
  have owner := (TypeDecl.declares_iff.1 (TypeDecl.declares_of_comparable comparable ha)).1
  have same : a.handle.same b.handle = true :=
    Handle.same_iff.2 ⟨owner.trans (indifferent.owned b hb).symm, name⟩
  obtain ⟨x, y, hx, hy, equal⟩ := values a ha
  obtain ⟨i, step⟩ := Value.exists_step_of_mem ha hx hy
  exact ⟨i, x, y, step, indifferent.left a ha b hb same ▸ hx,
    indifferent.right a ha b hb same ▸ hy, equal⟩

/-! ### The other direction -/

/-- If a comparison succeeds, the swapped one has an answer. -/
private theorem exists_equalWithin_swap
    (indifferent : Value.Beside Indifferent (.nested l) (.nested r))
    (h : (equalWithin limit room l r).result = .ok true) :
    ∃ b, (equalWithin limit room r l).result = .ok b := by
  induction room generalizing l r with
  | zero => cases h
  | succ room ih =>
    obtain ⟨comparable, -⟩ := equalWithin_succ_iff.1 h
    rw [equalWithin]
    split
    · next swapped =>
      have names := (TypeDecl.comparable_swap_iff indifferent.here.owned comparable).1 swapped
      refine exists_agreeOn fun b hb ↦ ?_
      obtain ⟨i, x, y, step, hx, hy, equal⟩ := exists_step_of_equal indifferent.here names h hb
      refine ⟨y, x, hy, hx, Value.exists_equalBy ?_ (Value.equalBy_eq_true_iff.1 equal).leading.symm⟩
      rintro e d ⟨equal, p, leads⟩
      exact ih ((indifferent.step step).leads leads) equal
    · exact ⟨false, rfl⟩

/-- If a comparison succeeds and the names are the same at all places, the swapped one succeeds. -/
private theorem equalWithin_swap_of_names
    (indifferent : Value.Beside Indifferent (.nested l) (.nested r))
    (names : Value.Beside (fun e f ↦ e.type.SameNames f.type) (.nested l) (.nested r))
    (h : (equalWithin limit room l r).result = .ok true) :
    (equalWithin limit room r l).result = .ok true := by
  induction room generalizing l r with
  | zero => cases h
  | succ room ih =>
    obtain ⟨comparable, -⟩ := equalWithin_succ_iff.1 h
    refine equalWithin_succ_iff.2
      ⟨(TypeDecl.comparable_swap_iff indifferent.here.owned comparable).2 names.here, fun b hb ↦ ?_⟩
    obtain ⟨i, x, y, step, hx, hy, equal⟩ := exists_step_of_equal indifferent.here names.here h hb
    refine ⟨y, x, hy, hx, Value.equalBy_eq_true_iff.2 ?_⟩
    refine (Value.equalBy_eq_true_iff.1 equal).leading.symm.mono ?_
    rintro e d ⟨equal, p, leads⟩
    exact ih ((indifferent.step step).leads leads) ((names.step step).leads leads) equal

/-- Elements at the same place of equal arrays are equal. -/
private theorem equalBy_of_getElem? {f : Description → Description → Eval Bool} {xs ys : List Value}
    {i : Nat} {x y : Value} (h : (Value.equalBy f (.array xs) (.array ys)).result = .ok true)
    (left : xs[i]? = some x) (right : ys[i]? = some y) :
    (Value.equalBy f x y).result = .ok true := by
  cases Value.equalBy_eq_true_iff.1 h with
  | array _ elements =>
    refine Value.equalBy_eq_true_iff.2 (elements x y ?_)
    exact List.mem_of_getElem? (List.getElem?_zip_eq_some.2 ⟨left, right⟩)

/-- A step from two annotations that are equal in both directions leads to two values that are. -/
private theorem equalBy_of_accessor (indifferent : l.Indifferent r)
    (h : (equalWithin limit (room + 1) l r).result = .ok true)
    (h' : (equalWithin limit (room + 1) r l).result = .ok true) {a : Accessor} {x y : Value}
    (ha : a ∈ l.type.accessors) (left : (l.get a.handle).result = .ok x)
    (right : (r.get a.handle).result = .ok y) :
    (Value.equalBy (equalWithin limit room) x y).result = .ok true ∧
      (Value.equalBy (equalWithin limit room) y x).result = .ok true := by
  obtain ⟨comparable, values⟩ := equalWithin_succ_iff.1 h
  obtain ⟨x', y', hx, hy, equal⟩ := values a ha
  cases left.symm.trans hx
  cases right.symm.trans hy
  refine ⟨equal, ?_⟩
  -- The right side has an accessor of this name, and is asked by it in the other direction.
  obtain ⟨owner, named⟩ :=
    TypeDecl.declares_iff.1 (TypeDecl.declares_of_comparable comparable ha)
  obtain ⟨b, hb, name⟩ := List.mem_map.1 named
  have same : a.handle.same b.handle = true :=
    Handle.same_iff.2 ⟨owner.trans (indifferent.owned b hb).symm, name.symm⟩
  obtain ⟨y', x', hy', hx', equal'⟩ := (equalWithin_succ_iff.1 h').2 b hb
  cases (indifferent.left a ha b hb same ▸ left).symm.trans hx'
  cases (indifferent.right a ha b hb same ▸ right).symm.trans hy'
  exact equal'

/-- Two values that are equal in both directions are so at all places. -/
private theorem equalBy_of_leads {x y u w : Value} {p : Place}
    (indifferent : Value.Beside Indifferent x y)
    (h : (Value.equalBy (equalWithin limit room) x y).result = .ok true)
    (h' : (Value.equalBy (equalWithin limit room) y x).result = .ok true)
    (leads : Value.Leads x y p u w) :
    ∃ room, (Value.equalBy (equalWithin limit room) u w).result = .ok true ∧
      (Value.equalBy (equalWithin limit room) w u).result = .ok true := by
  induction leads generalizing room with
  | here => exact ⟨room, h, h'⟩
  | step first _ ih =>
    have inside := indifferent.step first
    cases first with
    | accessor own left right =>
      cases room with
      | zero => cases h
      | succ room =>
        obtain ⟨equal, equal'⟩ :=
          equalBy_of_accessor indifferent.here h h' (List.mem_of_getElem? own) left right
        exact ih inside equal equal'
    | element left right =>
      exact ih inside (equalBy_of_getElem? h left right) (equalBy_of_getElem? h' right left)

/-- Annotations that are equal in both directions declare the same names. -/
private theorem sameNames_of_equalWithin (h : (equalWithin limit room l r).result = .ok true)
    (h' : (equalWithin limit room r l).result = .ok true) : l.type.SameNames r.type := by
  cases room with
  | zero => cases h
  | succ room =>
    have sub := TypeDecl.subset_of_comparable (equalWithin_succ_iff.1 h).1
    have sup := TypeDecl.subset_of_comparable (equalWithin_succ_iff.1 h').1
    exact fun n ↦ ⟨fun hn ↦ sub hn, fun hn ↦ sup hn⟩

/-- **What a comparison says of the other direction.** Let a comparison of two annotations succeed,
where any two annotations that are compared in the course of it are indifferent to the side that a
handle is from.

* The names that the left type declares are among those of the right one. They are the same if
  there are as many of them, without repetitions; and they are if none is repeated on the left.
* The swapped comparison has an answer under the same limit. It is `true` exactly if the types
  declare the same names at every place where annotations are compared, and so `false` if the right
  type declares a name more. -/
theorem equal_swap_iff (indifferent : Value.Beside Indifferent (.nested l) (.nested r))
    (h : (l.equal limit r).result = .ok true) :
    l.type.accessorNames ⊆ r.type.accessorNames ∧
    (l.type.SameNames r.type ↔
      l.type.accessorNames.eraseDups.length = r.type.accessorNames.eraseDups.length) ∧
    (l.type.accessorNames.Nodup → l.type.SameNames r.type) ∧
    ∃ b, (r.equal limit l).result = .ok b ∧
      (b = true ↔ Value.Beside (fun e f ↦ e.type.SameNames f.type) (.nested l) (.nested r)) := by
  have comparable : l.type.comparable r.type = true := by
    cases limit with
    | zero => cases h
    | succ room => exact (equalWithin_succ_iff.1 h).1
  have sub := TypeDecl.subset_of_comparable comparable
  refine ⟨sub, TypeDecl.sameNames_iff_of_subset sub, TypeDecl.sameNames_of_comparable comparable, ?_⟩
  obtain ⟨b, hb⟩ := exists_equalWithin_swap indifferent h
  refine ⟨b, hb, ?_, fun names ↦ ?_⟩
  · rintro rfl p e f leads
    obtain ⟨room, equal, equal'⟩ := equalBy_of_leads indifferent h hb leads
    exact sameNames_of_equalWithin equal equal'
  · cases hb.symm.trans (equalWithin_swap_of_names indifferent names h)
    rfl

/-- A detached pair and a stated one, whose types list their accessors in different orders, are equal
in one direction; so they declare the same names, and the other direction has an answer. -/
theorem equal_swap_iff_pair :
    Value.Beside Indifferent (.nested (.stated Registry.detachedPair))
      (.nested Registry.statedPair) ∧
    ((stated Registry.detachedPair).equal 64 Registry.statedPair).result = .ok true ∧
    (stated Registry.detachedPair).type.SameNames Registry.statedPair.type ∧
    ∃ b, (Registry.statedPair.equal 64 (stated Registry.detachedPair)).result = .ok b := by
  -- Both can be detached, and the stated one is its own detached form.
  have live : (Registry.livePair.detach 64).result = .ok Registry.detachedPair := rfl
  have detached := everywhere_settled_of_detachWithin live
  have settled : Registry.statedPair.Everywhere Settled :=
    everywhere_settled_of_detachWithin (rfl : (Registry.statedPair.detach 64).result = .ok _)
  have indifferent := Value.beside_indifferent (Value.everywhere_nested_iff.2 detached)
    (Value.everywhere_nested_iff.2 settled)
  have equal : ((stated Registry.detachedPair).equal 64 Registry.statedPair).result = .ok true := rfl
  obtain ⟨-, -, distinct, b, hb, -⟩ := equal_swap_iff indifferent equal
  exact ⟨indifferent, equal, distinct (by decide), b, hb⟩

/-! ### A range with a repeated name -/

/-- A range whose type declares its lower end twice. -/
def lowLow : Stated where
  type := .ofDrafts "com.example.Range"
    [⟨"low", .int, some (.int 1)⟩, ⟨"low", .int, some (.int 1)⟩]
  values := [("low", .int 1)]

/-- A range with two ends. -/
def lowHigh : Stated where
  type := .ofDrafts "com.example.Range"
    [⟨"low", .int, some (.int 1)⟩, ⟨"high", .int, some (.int 1)⟩]
  values := [("low", .int 1), ("high", .int 1)]

/-- The two ranges are built by drafts of declared types. In one direction they are equal, though
only one of them has an upper end; in the other one they are not. It does not matter which of them a
handle is from. -/
theorem range_equal_one_way :
    TypeDecl.declare "com.example.Range"
      [⟨"low", .int, some (.int 1)⟩, ⟨"low", .int, some (.int 1)⟩] = .ok lowLow.type ∧
    Stated.of lowLow.type [] = .ok lowLow ∧
    TypeDecl.declare "com.example.Range"
      [⟨"low", .int, some (.int 1)⟩, ⟨"high", .int, some (.int 1)⟩] = .ok lowHigh.type ∧
    Stated.of lowHigh.type [] = .ok lowHigh ∧
    ((stated lowLow).equal 64 (stated lowHigh)).result = .ok true ∧
    ¬lowLow.type.SameNames lowHigh.type ∧
    ((stated lowHigh).equal 64 (stated lowLow)).result = .ok false ∧
    Value.Beside Indifferent (.nested (.stated lowLow)) (.nested (.stated lowHigh)) := by
  have low : (stated lowLow).Everywhere Settled :=
    everywhere_settled_of_detachWithin (rfl : ((stated lowLow).detach 64).result = .ok _)
  have high : (stated lowHigh).Everywhere Settled :=
    everywhere_settled_of_detachWithin (rfl : ((stated lowHigh).detach 64).result = .ok _)
  refine ⟨rfl, rfl, rfl, rfl, rfl, fun same ↦ ?_, rfl, Value.beside_indifferent
    (Value.everywhere_nested_iff.2 low) (Value.everywhere_nested_iff.2 high)⟩
  exact absurd ((same "high").2 (by decide)) (by decide)

end Description

end Annotations
