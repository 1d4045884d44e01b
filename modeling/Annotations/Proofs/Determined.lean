import Annotations.Proofs.Grounds
import Annotations.Proofs.RoundTrip
import Annotations.Proofs.Settled

/-!
# The text determines the value

Two values may be written with one text though they are not the same: a live constant and a stated
one, a live accessor and one without default value, a type with a live default value and one with
its detached form. A comparison makes no difference between those. **So values with the same text
are found equal** (`Value.equal_of_write`), but for one thing that is lost in writing: which number
that is not finite stood there (`Value.infinities_written_alike`).

* A text tells what a comparison asks for at the top: the category, a scalar (`Value.eq_of_print`),
  the names of types and constants, how many elements there are, and the names of accessors.
  Freezing leaves these as they are (`TypeDecl.names_of_freeze` and the like).
* What two values have at a step is written alike again (`Value.WrittenAlike.step`), and so at every
  place that a comparison can get to. There it finds no difference, and all is answered; and every
  outcome of a comparison has its grounds at some place.

How documents are printed does not matter, as long as their texts tell them apart; in particular,
finite numbers have to be printed distinctly (`Json.Layer.TellsApart`). So the result is one about
every such layer (`Value.equal_of_print`), and the standard layer is one.

All this is about values in which the annotations are settled. They are, in whatever ways they were
formed, when they are stated and their types own their accessors
(`Value.everywhere_settled_of_formed`). What the default values of the types are does not matter;
there may be live annotations in them.
-/

namespace Annotations

/-! ### The parts of a text -/

section Print

variable {L : Json.Layer} (tells : L.TellsApart)
include tells

/-- A written thing tells its category and what is written under it. -/
theorem Json.Layer.TellsApart.tagged {c c' : Category} {d e : Doc}
    (same : L.print (.tagged c d) = L.print (.tagged c' e)) : c = c' ∧ L.print d = L.print e := by
  have members := tells.object same
  simp only [List.map_cons, List.map_nil, List.cons.injEq, Prod.mk.injEq, and_true] at members
  obtain ⟨words, inside⟩ := members
  have category := Category.ofWord?_word c
  rw [words, Category.ofWord?_word] at category
  exact ⟨(Option.some.inj category).symm, inside⟩

/-- A written type tells its name and the written forms of its accessors. -/
theorem Json.Layer.TellsApart.typeDoc {n n' : String} {s s' : TypeSort} {as as' : List Doc}
    {cs cs' : List String}
    (same : L.print (typeDoc n s as cs) = L.print (typeDoc n' s' as' cs')) :
    n = n' ∧ as.map L.print = as'.map L.print := by
  have members := tells.object same
  simp only [List.cons_append, List.map_cons, List.map_append, List.cons.injEq, Prod.mk.injEq,
    true_and] at members
  obtain ⟨name, -, rest⟩ := members
  refine ⟨tells.string name, ?_⟩
  -- The accessors come first, under a name that the constants do not have.
  cases as with
  | nil =>
    cases as' with
    | nil => rfl
    | cons a' as' => cases cs <;> simp [optionalList] at rest
  | cons a as =>
    cases as' with
    | nil => cases cs' <;> simp [optionalList] at rest
    | cons a' as' => exact tells.array (Prod.mk.inj (List.cons.inj rest).1).2

/-- A written accessor tells its name. -/
theorem Accessor.name_of_print {a b : Accessor} (same : L.print a.doc = L.print b.doc) :
    a.name = b.name := by
  have first (a : Accessor) : ∃ ms, a.doc = .object (("name", .string a.name) :: ms) := by
    cases a with
    | stated o n k d => cases d <;> exact ⟨_, rfl⟩
    | live m => exact ⟨_, rfl⟩
  obtain ⟨ms, ha⟩ := first a
  obtain ⟨ns, hb⟩ := first b
  rw [ha, hb] at same
  exact tells.string (Prod.mk.inj (List.cons.inj (tells.object same)).1).2

private theorem map_name_of_map_print {as bs : List Accessor}
    (same : (as.map Accessor.doc).map L.print = (bs.map Accessor.doc).map L.print) :
    as.map Accessor.name = bs.map Accessor.name := by
  induction as generalizing bs with
  | nil =>
    rw [List.map_nil, List.map_nil, List.nil_eq, List.map_eq_nil_iff, List.map_eq_nil_iff] at same
    rw [same]
  | cons a as ih =>
    cases bs with
    | nil => cases same
    | cons b bs =>
      obtain ⟨first, rest⟩ := List.cons.inj same
      rw [List.map_cons, List.map_cons, Accessor.name_of_print tells first, ih rest]

/-- A written type tells its name and the names of its accessors, in their order. -/
theorem TypeDecl.names_of_print {t u : TypeDecl} (same : L.print t.doc = L.print u.doc) :
    t.name = u.name ∧ t.accessorNames = u.accessorNames := by
  rw [doc_eq, doc_eq] at same
  obtain ⟨name, accessors⟩ := tells.typeDoc same
  exact ⟨name, map_name_of_map_print tells accessors⟩

/-- A written constant tells its name and the name of its type. -/
theorem Constant.names_of_print {c d : Constant} (same : L.print c.doc = L.print d.doc) :
    c.typeName = d.typeName ∧ c.name = d.name := by
  have form (c : Constant) : c.doc = .object [("type", c.type.doc), ("name", .string c.name)] := by
    cases c with
    | stated t n => rfl
    | live c => rw [doc, type, doc_describe, name]
  rw [form, form] at same
  have members := tells.object same
  simp only [List.map_cons, List.map_nil, List.cons.injEq, Prod.mk.injEq, true_and,
    and_true] at members
  exact ⟨(TypeDecl.names_of_print tells members.1).1, tells.string members.2⟩

/-- A written annotation tells the texts of its type and of its values. -/
theorem Stated.of_print {s t : Stated} (same : L.print s.doc = L.print t.doc) :
    L.print s.type.doc = L.print t.type.doc ∧
      s.values.map (fun e ↦ (e.1, L.print e.2.doc)) =
        t.values.map fun e ↦ (e.1, L.print e.2.doc) := by
  rw [doc_eq, doc_eq] at same
  have members := tells.object same
  simp only [List.map_cons, List.map_nil, List.cons.injEq, Prod.mk.injEq, true_and,
    and_true] at members
  obtain ⟨type, values⟩ := members
  have entries := tells.object values
  rw [List.map_map, List.map_map] at entries
  exact ⟨type, entries⟩

end Print

/-! ### What freezing leaves as it is -/

section Freeze

variable {limit : Nat}

private theorem Accessor.name_of_freeze {a a' : Accessor} (h : (a.freeze limit).result = .ok a') :
    a'.name = a.name := by
  cases a with
  | stated o n k d =>
    cases d with
    | none =>
      cases h
      rfl
    | some v =>
      obtain ⟨v', -, h⟩ := Eval.result_bind_eq_ok.1 h
      cases h
      rfl
  | live m =>
    cases h
    rfl

private theorem map_name_of_freezeAccessors {as as' : List Accessor}
    (h : (freezeAccessors limit as).result = .ok as') :
    as'.map Accessor.name = as.map Accessor.name := by
  induction as generalizing as' with
  | nil =>
    cases h
    rfl
  | cons a as ih =>
    obtain ⟨a', first, h⟩ := Eval.result_bind_eq_ok.1 h
    obtain ⟨rest, hrest, h⟩ := Eval.result_bind_eq_ok.1 h
    cases h
    rw [List.map_cons, List.map_cons, Accessor.name_of_freeze first, ih hrest]

/-- A type keeps its name and the names of its accessors. -/
theorem TypeDecl.names_of_freeze {t t' : TypeDecl} (h : (t.freeze limit).result = .ok t') :
    t'.name = t.name ∧ t'.accessorNames = t.accessorNames := by
  obtain ⟨name, sort, accessors, constants⟩ := t
  obtain ⟨as, has, h⟩ := Eval.result_bind_eq_ok.1 h
  cases h
  exact ⟨rfl, map_name_of_freezeAccessors has⟩

/-- Frozen elements stand at the places of the elements. -/
theorem getElem?_of_freezeValues {vs vs' : List Value}
    (h : (freezeValues limit vs).result = .ok vs') :
    vs'.length = vs.length ∧ ∀ {i : Nat} {v : Value}, vs[i]? = some v →
      ∃ v', vs'[i]? = some v' ∧ (v.freeze limit).result = .ok v' := by
  induction vs generalizing vs' with
  | nil =>
    cases h
    exact ⟨rfl, by simp⟩
  | cons v vs ih =>
    obtain ⟨v', first, h⟩ := Eval.result_bind_eq_ok.1 h
    obtain ⟨rest, hrest, h⟩ := Eval.result_bind_eq_ok.1 h
    cases h
    obtain ⟨length, elements⟩ := ih hrest
    refine ⟨by rw [List.length_cons, List.length_cons, length], fun {i u} hu ↦ ?_⟩
    cases i with
    | zero =>
      cases hu
      exact ⟨v', rfl, first⟩
    | succ i => exact elements hu

/-- A frozen entry has the name of the entry. -/
theorem lookup_of_freezeEntries {es es' : List (String × Value)}
    (h : (freezeEntries limit es).result = .ok es') {n : String} {v : Value}
    (found : es.lookup n = some v) :
    ∃ v', es'.lookup n = some v' ∧ (v.freeze limit).result = .ok v' := by
  induction es generalizing es' with
  | nil => cases found
  | cons e es ih =>
    obtain ⟨name, u⟩ := e
    obtain ⟨u', first, h⟩ := Eval.result_bind_eq_ok.1 h
    obtain ⟨rest, hrest, h⟩ := Eval.result_bind_eq_ok.1 h
    cases h
    rw [Entries.lookup_cons] at found ⊢
    split at found
    · next same =>
      cases found
      exact ⟨u', if_pos same, first⟩
    · next other =>
      obtain ⟨v', hv', frozen⟩ := ih hrest found
      exact ⟨v', (if_neg other).trans hv', frozen⟩

/-- A constant keeps its name and the name of its type. -/
theorem Constant.names_of_freeze {c c' : Constant} (h : (c.freeze limit).result = .ok c') :
    c'.typeName = c.typeName ∧ c'.name = c.name := by
  cases c with
  | stated t n =>
    obtain ⟨t', type, h⟩ := Eval.result_bind_eq_ok.1 h
    cases h
    exact ⟨(TypeDecl.names_of_freeze type).1, rfl⟩
  | live c =>
    cases h
    exact ⟨rfl, rfl⟩

/-- A stated annotation is frozen by its type and its values. -/
theorem Stated.of_freeze {s s' : Stated} (h : (s.freeze limit).result = .ok s') :
    (s.type.freeze limit).result = .ok s'.type ∧
      (freezeEntries limit s.values).result = .ok s'.values := by
  obtain ⟨t, values⟩ := s
  obtain ⟨t', type, h⟩ := Eval.result_bind_eq_ok.1 h
  obtain ⟨es, entries, h⟩ := Eval.result_bind_eq_ok.1 h
  cases h
  exact ⟨type, entries⟩

end Freeze

/-! ### Values that are written alike -/

/-- The category that a value is written under. -/
def Value.category : Value → Category
  | boolean _ => .boolean
  | byte _ => .byte
  | char _ => .char
  | short _ => .short
  | int _ => .int
  | long _ => .long
  | float _ => .float
  | double _ => .double
  | string _ => .string
  | type _ => .type
  | constant _ => .constant
  | nested _ => .nested
  | array _ => .array

namespace Value

theorem exists_doc (v : Value) : ∃ d, v.doc = .tagged v.category d := by
  cases v <;> exact ⟨_, rfl⟩

theorem category_of_freeze {limit : Nat} {v v' : Value} (h : (v.freeze limit).result = .ok v') :
    v'.category = v.category := by
  cases v with
  | type t | constant t | nested t | array t =>
    obtain ⟨t', -, h⟩ := Eval.result_bind_eq_ok.1 h
    cases h
    rfl
  | _ =>
    cases h
    rfl

/-- The frozen forms of the values, each under some limit, have the same text in the layer. -/
def WrittenAlike (L : Json.Layer) (v w : Value) : Prop :=
  ∃ m n v' w', (v.freeze m).result = .ok v' ∧ (w.freeze n).result = .ok w' ∧
    L.print v'.doc = L.print w'.doc

variable {L : Json.Layer}

theorem writtenAlike_of_write {m n : Nat} {v w : Value} {text : String}
    (left : (v.writeIn L m).result = .ok text) (right : (w.writeIn L n).result = .ok text) :
    WrittenAlike L v w := by
  obtain ⟨v', hv, left⟩ := Eval.result_bind_eq_ok.1 left
  obtain ⟨w', hw, right⟩ := Eval.result_bind_eq_ok.1 right
  exact ⟨m, n, v', w', hv, hw, Except.ok.inj (left.trans right.symm)⟩

variable {v w x y u : Value} {i : Nat} {p : Place} (tells : L.TellsApart)
include tells

theorem WrittenAlike.category (h : WrittenAlike L v w) : v.category = w.category := by
  obtain ⟨m, n, v', w', hv, hw, same⟩ := h
  obtain ⟨d, hd⟩ := v'.exists_doc
  obtain ⟨e, he⟩ := w'.exists_doc
  rw [hd, he] at same
  rw [← category_of_freeze hv, ← category_of_freeze hw, (tells.tagged same).1]

/-- Arrays that are written alike have as many elements, and these are written alike. -/
theorem WrittenAlike.elements {vs ws : List Value} (h : WrittenAlike L (array vs) (array ws)) :
    vs.length = ws.length ∧
      ∀ {i : Nat} {v w : Value}, vs[i]? = some v → ws[i]? = some w → WrittenAlike L v w := by
  obtain ⟨m, n, v', w', hv, hw, same⟩ := h
  obtain ⟨vs', hvs, hv⟩ := Eval.result_bind_eq_ok.1 hv
  obtain ⟨ws', hws, hw⟩ := Eval.result_bind_eq_ok.1 hw
  cases hv
  cases hw
  obtain ⟨length, left⟩ := getElem?_of_freezeValues hvs
  obtain ⟨length', right⟩ := getElem?_of_freezeValues hws
  have texts := tells.array (tells.tagged same).2
  rw [valueDocs_eq_map, valueDocs_eq_map] at texts
  refine ⟨?_, fun {i v w} hv hw ↦ ?_⟩
  · simpa only [List.length_map, length, length'] using congrArg List.length texts
  · obtain ⟨v', atV, hv'⟩ := left hv
    obtain ⟨w', atW, hw'⟩ := right hw
    refine ⟨m, n, v', w', hv', hw', Option.some.inj ?_⟩
    have place := congrArg (·[i]?) texts
    simpa only [List.getElem?_map, atV, atW, Option.map_some] using place

/-- Stated annotations that are written alike are of types of one name, with accessors of the same
names in the same order, and what they have under a name is written alike. -/
theorem WrittenAlike.entries {s t : Stated}
    (h : WrittenAlike L (nested (.stated s)) (nested (.stated t))) :
    s.type.name = t.type.name ∧ s.type.accessorNames = t.type.accessorNames ∧
      ∀ {n : String} {v w : Value}, s.values.lookup n = some v → t.values.lookup n = some w →
        WrittenAlike L v w := by
  obtain ⟨m, n, v', w', hv, hw, same⟩ := h
  obtain ⟨s', hs, hv⟩ := Eval.result_bind_eq_ok.1 hv
  obtain ⟨t', ht, hw⟩ := Eval.result_bind_eq_ok.1 hw
  cases hv
  cases hw
  obtain ⟨type, entries⟩ := Stated.of_freeze hs
  obtain ⟨type', entries'⟩ := Stated.of_freeze ht
  obtain ⟨types, values⟩ := Stated.of_print tells (tells.tagged same).2
  obtain ⟨name, names⟩ := TypeDecl.names_of_freeze type
  obtain ⟨name', names'⟩ := TypeDecl.names_of_freeze type'
  obtain ⟨written, writtenNames⟩ := TypeDecl.names_of_print tells types
  refine ⟨by rw [← name, ← name', written], by rw [← names, ← names', writtenNames],
    fun {k v w} hv hw ↦ ?_⟩
  obtain ⟨v', underV, hv'⟩ := lookup_of_freezeEntries entries hv
  obtain ⟨w', underW, hw'⟩ := lookup_of_freezeEntries entries' hw
  refine ⟨m, n, v', w', hv', hw', Option.some.inj ?_⟩
  have found := congrArg (List.lookup k) values
  have printed := Entries.lookup_map fun v : Value ↦ L.print v.doc
  rw [printed, printed, underV, underW] at found
  exact found

/-- **What two values have at a step is written alike** as well. -/
theorem WrittenAlike.step (h : WrittenAlike L x y) (step : Step i x y u w)
    (hx : x.Everywhere Description.Settled) (hy : y.Everywhere Description.Settled) :
    WrittenAlike L u w := by
  cases step with
  | accessor own left right =>
    obtain ⟨s, rfl, -⟩ := (everywhere_nested_iff.1 hx).self.exists_stated
    obtain ⟨t, rfl, -⟩ := (everywhere_nested_iff.1 hy).self.exists_stated
    exact (h.entries tells).2.2 (Stated.get_eq_ok_iff.1 left).2 (Stated.get_eq_ok_iff.1 right).2
  | element left right => exact (h.elements tells).2 left right

/-- What they have at a place is written alike. -/
theorem WrittenAlike.leads (h : WrittenAlike L x y) (leads : Leads x y p u w)
    (hx : x.Everywhere Description.Settled) (hy : y.Everywhere Description.Settled) :
    WrittenAlike L u w := by
  induction leads with
  | here => exact h
  | step first _ ih =>
    obtain ⟨hu, hw⟩ := first.settled hx hy
    exact ih (h.step tells first hx hy) hu hw

/-! ### Where they can differ -/

/-- The value is a floating-point number that is not finite. -/
def NotFinite : Value → Prop
  | float x => ∀ negative s e, x.decode ≠ .finite negative s e
  | double x => ∀ negative s e, x.decode ≠ .finite negative s e
  | _ => False

/-- **A scalar is known from its text**, unless it is a number that is not finite. -/
theorem eq_of_print (hv : v.IsScalar) (category : v.category = w.category)
    (same : L.print v.doc = L.print w.doc) (numbers : v.NotFinite → v = w) : v = w := by
  have isFinite {m : Magnitude} (h : ¬∀ negative s e, m ≠ .finite negative s e) : m.IsFinite :=
    Magnitude.isFinite_iff.2 (by simpa only [ne_eq, not_forall, not_not] using h)
  cases v <;> cases w
  all_goals first
    | exact hv.elim
    | cases category
      done
    | have inside := (tells.tagged same).2
  case boolean.boolean => rw [tells.bool inside]
  case byte.byte => rw [Int8.toInt_inj.1 (tells.int inside)]
  case char.char => rw [String.singleton_inj.1 (tells.string inside)]
  case short.short => rw [Int16.toInt_inj.1 (tells.int inside)]
  case int.int => rw [Int32.toInt_inj.1 (tells.int inside)]
  case long.long => rw [Int64.toInt_inj.1 (tells.int inside)]
  case string.string => rw [tells.string inside]
  case float.float a b =>
    by_cases finite : (float a).NotFinite
    · exact numbers finite
    · rw [tells.single (isFinite finite) inside]
  case double.double a b =>
    by_cases finite : (double a).NotFinite
    · exact numbers finite
    · rw [tells.double (isFinite finite) inside]

omit tells

theorem freeze_of_isScalar (h : v.IsScalar) (limit : Nat) : v.freeze limit = pure v := by
  cases v <;> first | rfl | exact h.elim

theorem not_differs_self (h : v.IsScalar) : ¬v.Differs v := by
  cases v <;> first | exact h.elim | simp [Differs]

private theorem isScalar_of_category (h : v.IsScalar) (category : v.category = w.category) :
    w.IsScalar := by
  cases w with
  | type | constant | nested | array =>
    cases v <;> first | exact h.elim | cases category
  | _ => trivial

include tells

/-- Scalars that are written alike are the same, unless they are numbers that are not finite. -/
private theorem WrittenAlike.eq_of_isScalar (h : WrittenAlike L v w) (hv : v.IsScalar)
    (numbers : v.NotFinite → v = w) : v = w := by
  have category := h.category tells
  have hw := isScalar_of_category hv category
  obtain ⟨m, n, v', w', frozen, frozen', same⟩ := h
  rw [freeze_of_isScalar hv] at frozen
  rw [freeze_of_isScalar hw] at frozen'
  cases frozen
  cases frozen'
  exact eq_of_print tells hv category same numbers

/-- **Values that are written alike do not differ at the top**, unless they are numbers that are not
finite. -/
theorem WrittenAlike.not_differs (h : WrittenAlike L v w) (hv : v.Everywhere Description.Settled)
    (hw : w.Everywhere Description.Settled) (numbers : v.NotFinite → v = w) : ¬v.Differs w := by
  have category := h.category tells
  cases v with
  | type t =>
    cases w with
    | type u =>
      obtain ⟨m, n, v', w', frozen, frozen', same⟩ := h
      obtain ⟨t', ht, frozen⟩ := Eval.result_bind_eq_ok.1 frozen
      obtain ⟨u', hu, frozen'⟩ := Eval.result_bind_eq_ok.1 frozen'
      cases frozen
      cases frozen'
      have names := (TypeDecl.names_of_print tells (tells.tagged same).2).1
      rw [(TypeDecl.names_of_freeze ht).1, (TypeDecl.names_of_freeze hu).1] at names
      exact not_not.2 names
    | _ => cases category
  | constant c =>
    cases w with
    | constant d =>
      obtain ⟨m, n, v', w', frozen, frozen', same⟩ := h
      obtain ⟨c', hc, frozen⟩ := Eval.result_bind_eq_ok.1 frozen
      obtain ⟨d', hd, frozen'⟩ := Eval.result_bind_eq_ok.1 frozen'
      cases frozen
      cases frozen'
      obtain ⟨type, name⟩ := Constant.names_of_print tells (tells.tagged same).2
      rw [(Constant.names_of_freeze hc).1, (Constant.names_of_freeze hd).1] at type
      rw [(Constant.names_of_freeze hc).2, (Constant.names_of_freeze hd).2] at name
      exact not_or.2 ⟨not_not.2 type, not_not.2 name⟩
    | _ => cases category
  | nested d =>
    cases w with
    | nested e =>
      obtain ⟨s, rfl, owned, -⟩ := (everywhere_nested_iff.1 hv).self.exists_stated
      obtain ⟨t, rfl, -⟩ := (everywhere_nested_iff.1 hw).self.exists_stated
      obtain ⟨name, names, -⟩ := h.entries tells
      have comparable : s.type.comparable t.type = true :=
        TypeDecl.comparable_of_perm owned name (.of_eq names)
      rw [differs_nested_iff]
      simp [Description.type, comparable]
    | _ => cases category
  | array vs =>
    cases w with
    | array ws => exact not_not.2 (h.elements tells).1
    | _ => cases category
  | _ =>
    rw [← h.eq_of_isScalar tells trivial numbers]
    exact not_differs_self trivial

omit tells

/-! ### Comparing what is written alike -/

/-- In whatever ways the annotations in a value were formed, they are settled, if all of them are
stated and their types own their accessors. -/
theorem everywhere_settled_of_formed
    (formed : v.Everywhere fun d ↦ ∃ s, d = .stated s ∧ s.type.Owned ∧ s.Formed) :
    v.Everywhere Description.Settled := by
  intro d hd
  refine (formed d hd).mono ?_
  rintro _ ⟨s, rfl, owned, formed⟩
  exact ⟨owned, formed.arranged⟩

/-- What does not differ from a number that is not finite is the same. -/
private theorem eq_of_not_differs (hv : v.NotFinite) (same : ¬v.Differs w) : v = w := by
  cases v with
  | float a =>
    cases w with
    | float b => rw [Binary32.eq_iff_bits.2 (not_not.1 same)]
    | _ => exact absurd trivial same
  | double a =>
    cases w with
    | double b => rw [Binary64.eq_iff_bits.2 (not_not.1 same)]
    | _ => exact absurd trivial same
  | _ => exact hv.elim

/-- Wherever a number that is not finite stands in the first value, it stands in the second one. -/
def SharesNotFinite (v w : Value) : Prop :=
  ∀ p x y, Leads v w p x y → x.NotFinite → x = y

include tells

/-- **No visit fails** in values that are written alike. -/
private theorem WrittenAlike.answered (h : WrittenAlike L v w)
    (hv : v.Everywhere Description.Settled) (hw : w.Everywhere Description.Settled) {a : Visit}
    (on : a.On v w) : a.Answered := by
  obtain ⟨leads, own⟩ := on
  obtain ⟨hl, hr⟩ := leads.settled hv hw
  have same := (h.leads tells leads hv hw).not_differs tells hl hr False.elim
  rw [differs_nested_iff, Bool.not_eq_false] at same
  have ha := List.mem_of_getElem? own
  obtain ⟨x, left⟩ := (everywhere_nested_iff.1 hl).self.get ha
  obtain ⟨y, right⟩ := (everywhere_nested_iff.1 hr).self.get_of_declares
    (TypeDecl.declares_of_comparable same ha)
  exact ⟨x, y, by rw [left]; rfl, by rw [right]; rfl⟩

/-- **In every layer that tells documents apart, the text determines the value**, but for numbers
that are not finite. Let everything in two values be settled, and let both be written with the same
text, under whatever limits. Then a comparison under any limit has an answer, unless it reports the
limit. The answer is `true` exactly if each number in the left value that is not finite stands at
the same place in the right one. -/
theorem equal_of_print (hv : v.Everywhere Description.Settled)
    (hw : w.Everywhere Description.Settled) {m n : Nat} {text : String}
    (left : (v.writeIn L m).result = .ok text) (right : (w.writeIn L n).result = .ok text)
    (limit : Nat) :
    (v.equal limit w).result = .error (.recursionLimit limit) ∨
      ∃ b, (v.equal limit w).result = .ok b ∧ (b = true ↔ SharesNotFinite v w) := by
  have alike := writtenAlike_of_write left right
  have grounds : Grounds limit v w (fun _ ↦ True) (v.equal limit w).result
      (v.equal limit w).trace := grounded_equalBy (Description.grounded_equalWithin limit limit) v w
  generalize (v.equal limit w).result = result, (v.equal limit w).trace = trace at grounds
  cases grounds with
  | same same _ _ =>
    refine .inr ⟨true, rfl, fun _ p x y leads finite ↦ ?_, fun _ ↦ rfl⟩
    exact eq_of_not_differs finite (same p x y trivial leads)
  | differ _ leads differs _ =>
    refine .inr ⟨false, rfl, nofun, fun shares ↦ ?_⟩
    obtain ⟨hx, hy⟩ := leads.settled hv hw
    have written := alike.leads tells leads hv hw
    exact absurd differs (written.not_differs tells hx hy (shares _ _ _ leads))
  | failed _ on fails _ =>
    obtain ⟨x, y, hx, hy⟩ := alike.answered tells hv hw on
    rcases fails with fails | ⟨-, fails⟩
    · cases hx.symm.trans fails
    · cases hy.symm.trans fails
  | tooDeep => exact .inl rfl

omit tells

/-- **The text determines the value**, but for numbers that are not finite: what is said of values
with the same text holds in the standard layer, which tells documents apart. -/
theorem equal_of_write (hv : v.Everywhere Description.Settled)
    (hw : w.Everywhere Description.Settled) {m n : Nat} {text : String}
    (left : (v.write m).result = .ok text) (right : (w.write n).result = .ok text) (limit : Nat) :
    (v.equal limit w).result = .error (.recursionLimit limit) ∨
      ∃ b, (v.equal limit w).result = .ok b ∧ (b = true ↔ SharesNotFinite v w) :=
  equal_of_print Json.Layer.tellsApart_standard hv hw left right limit

/-- A constant, one and a half, infinity and a stated annotation. -/
def mixed (c : Constant) (s : Stated) : Value :=
  .array [.constant c, .double ⟨0x3ff8000000000000⟩, .double ⟨0x7ff0000000000000⟩,
    .nested (.stated s)]

theorem settled_mixed {s : Stated} (h : ((Description.stated s).detach 64).result = .ok s)
    (c : Constant) : (mixed c s).Everywhere Description.Settled := by
  refine everywhere_array_iff.2 fun v hv ↦ ?_
  simp only [List.mem_cons, List.not_mem_nil, or_false] at hv
  rcases hv with rfl | rfl | rfl | rfl
  · exact fun d hd ↦ by cases hd
  · exact fun d hd ↦ by cases hd
  · exact fun d hd ↦ by cases hd
  · exact everywhere_nested_iff.2 (Description.everywhere_settled_of_detachWithin h)

/-- A live color and a marker of a live type. -/
def liveMix : Value := mixed (.live (.color .red)) statedMark

/-- What is read back of them. -/
def statedMix : Value := mixed (.stated Color.liveType.stated "RED") statedMark.restate

/-- Both have one text, and a comparison finds them equal. -/
theorem equal_of_write_mix :
    liveMix.Everywhere Description.Settled ∧ statedMix.Everywhere Description.Settled ∧
    (∃ text, (liveMix.write 64).result = .ok text ∧ (statedMix.write 8).result = .ok text) ∧
    (liveMix.equal 64 statedMix).result = .ok true ∧ SharesNotFinite liveMix statedMix := by
  have settled : liveMix.Everywhere Description.Settled := settled_mixed rfl _
  have restated : statedMix.Everywhere Description.Settled := settled_mixed rfl _
  have left : (liveMix.write 64).result = .ok liveMix.doc.write := rfl
  have right : (statedMix.write 8).result = .ok liveMix.doc.write :=
    congrArg (fun d : Doc ↦ (.ok d.write : Except ReadError String))
      (Part.doc_restate (.value liveMix))
  have equal : (liveMix.equal 64 statedMix).result = .ok true := rfl
  refine ⟨settled, restated, ⟨_, left, right⟩, equal, ?_⟩
  rcases equal_of_write settled restated left right 64 with failed | ⟨b, answer, shares⟩
  · cases equal.symm.trans failed
  · cases equal.symm.trans answer
    exact shares.1 rfl

/-- **Infinite numbers have no texts of their own**: both are written as nothing, but they are not
equal. -/
theorem infinities_written_alike :
    ((double ⟨0x7ff0000000000000⟩).write 64).result = .ok "\x7b\"Double\":null\x7d" ∧
    ((double ⟨0xfff0000000000000⟩).write 64).result = .ok "\x7b\"Double\":null\x7d" ∧
    ((double ⟨0x7ff0000000000000⟩).equal 64 (double ⟨0xfff0000000000000⟩)).result = .ok false :=
  ⟨rfl, rfl, rfl⟩

end Value

end Annotations
