import Annotations.Proofs.Frozen
import Annotations.Proofs.Layers
import Annotations.Proofs.Restate
import Annotations.Written.Read

/-!
# What is written is read back

Values, constants, types and annotations are written as texts and read back from them. `restate`
says what comes back, and three facts lead there.

* **Trees are read back** (`Part.readsBack_of_portable`), part by part from the innermost ones
  outwards. An annotation is read by drafting it again. So it has to be what a draft of its type
  builds from its own values, which it is if these conform and if there is one for each accessor
  (`Stated.Proper.of_values`); drafts build such annotations (`Stated.proper_of`).
* **Texts are read back as trees** by every layer that reads back what it prints, and what is
  portable is written without floating-point numbers (`Part.noFloats_doc`).
* What came back has the same document (`Part.doc_restate`), and is written as the same text.

So what is read back does not depend on how documents are printed (`Part.read_print`); the standard
layer is one for which it holds (`Part.read_write`).

Left out are the floating-point numbers, since those that are not finite are written as `null`, and
the live annotations, since what is written of them is what they answer.
-/

namespace Annotations

/-! ### Kinds, sorts and numbers -/

theorem Kind.ofJson?_doc (k : Kind) : ofJson? k.doc.json = some k := by
  induction k with
  | array k ih => simp [doc, Doc.json_tagged, Json.tagged, ofJson?, ih]
  | enumeration n => simp [doc, Doc.json_tagged, Doc.json, Json.tagged, ofJson?, Json.string?]
  | nested n => simp [doc, Doc.json_tagged, Doc.json, Json.tagged, ofJson?, Json.string?]
  | _ => rfl

theorem TypeSort.ofJson?_tag (s : TypeSort) : ofJson? (.string s.tag) = some s := by
  cases s <;> rfl

namespace Json

theorem int?_int {low high n : Int} (lower : low ≤ n) (upper : n ≤ high) :
    (int n).int? low high = some n := by
  rw [int, int?, Numeral.inRange?, Numeral.int?_toString]
  exact if_pos ⟨lower, upper⟩

theorem int8?_int (n : Int8) : (int n.toInt).int8? = some n := by
  have lower := n.le_toInt
  have upper := n.toInt_lt
  rw [int8?, int?_int (by omega) (by omega), Option.map_some, Int8.ofInt_toInt]

theorem int16?_int (n : Int16) : (int n.toInt).int16? = some n := by
  have lower := n.le_toInt
  have upper := n.toInt_lt
  rw [int16?, int?_int (by omega) (by omega), Option.map_some, Int16.ofInt_toInt]

theorem int32?_int (n : Int32) : (int n.toInt).int32? = some n := by
  have lower := n.le_toInt
  have upper := n.toInt_lt
  rw [int32?, int?_int (by omega) (by omega), Option.map_some, Int32.ofInt_toInt]

theorem int64?_int (n : Int64) : (int n.toInt).int64? = some n := by
  have lower := n.le_toInt
  have upper := n.toInt_lt
  rw [int64?, int?_int (by omega) (by omega), Option.map_some, Int64.ofInt_toInt]

theorem char?_string (c : Char) : (string c.toString).char? = some c := by
  simp [char?]

theorem strings?_map (ss : List String) : (array (ss.map string)).strings? = some ss := by
  rw [strings?]
  induction ss with
  | nil => rfl
  | cons s ss ih =>
    rw [List.map_cons, List.mapM_cons, ih]
    rfl

end Json

/-! ### Things with named parts -/

namespace Parsed

variable {α β : Type}

private theorem ok_bind (a : α) (f : α → Parsed β) : ((.ok a : Parsed α) >>= f) = f a := rfl

/-- A part that was not there before. -/
private theorem once_none (a : α) : once none (.ok a : Parsed α) = .ok (some a) := rfl

end Parsed

private theorem typeMembers_accessors (parts : TypeParts) (fresh : parts.accessors = none)
    {ds : List Doc} {drafts : List AccessorDraft}
    (h : accessorListOfJson (ds.map Doc.json) = .ok drafts) (ms : List (String × Json)) :
    ∃ found : Option (List AccessorDraft), found.getD [] = drafts ∧
      typeMembers parts (Doc.membersJson (optionalList "accessors" ds) ++ ms) =
        typeMembers { parts with accessors := found } ms := by
  cases ds with
  | nil =>
    cases h
    exact ⟨none, rfl, by rw [← fresh]; rfl⟩
  | cons d ds =>
    have list : accessorsOfJson (Doc.array (d :: ds)).json = .ok drafts := by
      rw [Doc.json, Doc.elementsJson_eq_map]
      exact h
    refine ⟨some drafts, rfl, ?_⟩
    rw [optionalList, Doc.membersJson, Doc.membersJson, List.singleton_append, typeMembers, list,
      fresh, Parsed.once_none]
    · rfl
    · simp

private theorem typeMembers_constants (parts : TypeParts) (fresh : parts.constants = none)
    (ss : List String) :
    ∃ found : Option (List String), found.getD [] = ss ∧
      typeMembers parts (Doc.membersJson (optionalList "constants" (ss.map .string))) =
        .ok { parts with constants := found } := by
  cases ss with
  | nil => exact ⟨none, rfl, by rw [← fresh]; rfl⟩
  | cons s ss =>
    have strings : (Doc.array ((s :: ss).map .string)).json.strings? = some (s :: ss) := by
      rw [Doc.json, Doc.elementsJson_eq_map, List.map_map]
      exact Json.strings?_map (s :: ss)
    rw [List.map_cons] at strings ⊢
    refine ⟨some (s :: ss), rfl, ?_⟩
    rw [optionalList, Doc.membersJson, Doc.membersJson, typeMembers, strings, Parsed.ofOption,
      fresh, Parsed.once_none]
    · rfl
    · simp

/-- A type is read back if its accessors are. -/
theorem TypeDecl.ofJson_typeDoc {name : String} {sort : TypeSort} {accessors : List Doc}
    {drafts : List AccessorDraft} {constants : List String}
    (h : accessorListOfJson (accessors.map Doc.json) = .ok drafts) :
    TypeDecl.ofJson (typeDoc name sort accessors constants).json =
      .ok ⟨name, sort, drafts.map (·.on name), constants⟩ := by
  obtain ⟨as, rfl, accessors⟩ := typeMembers_accessors ⟨some name, some sort, none, none⟩ rfl h
    (Doc.membersJson (optionalList "constants" (constants.map .string)))
  obtain ⟨cs, rfl, constants⟩ := typeMembers_constants ⟨some name, some sort, as, none⟩ rfl
    constants
  simp only [typeDoc, List.cons_append, Doc.json, Doc.membersJson, Doc.membersJson_append,
    TypeDecl.ofJson, typeMembers, Json.string?, TypeSort.ofJson?_tag, Parsed.ofOption,
    Parsed.once_none, Parsed.ok_bind]
  rw [accessors, constants]
  rfl

/-- What is read of an accessor. -/
def Accessor.redraft (a : Accessor) : AccessorDraft :=
  ⟨a.name, a.kind, a.default?.map Value.restate⟩

theorem Accessor.on_redraft (a : Accessor) (owner : String) :
    a.redraft.on owner = a.restate owner := by
  cases a with
  | stated o n k d => cases d <;> rfl
  | live m => rfl

/-- The written form of a value is never `null`. -/
private theorem Parsed.unlessNull_doc {α : Type} (v : Value) (r : Parsed α) :
    Parsed.unlessNull v.doc.json r = r.map some := by
  cases v <;> rfl

/-- An accessor is read back if its default value is. -/
theorem AccessorDraft.ofJson_doc {a : Accessor}
    (h : ∀ v, a.default? = some v → Value.ofJson v.doc.json = .ok v.restate) :
    AccessorDraft.ofJson a.doc.json = .ok a.redraft := by
  cases a with
  | stated o n k d =>
    cases d with
    | none =>
      simp only [Accessor.doc, Doc.json, Doc.membersJson, AccessorDraft.ofJson, accessorMembers,
        Json.string?, Kind.ofJson?_doc, Parsed.ofOption, Parsed.once_none, Parsed.ok_bind]
      rfl
    | some v =>
      simp only [Accessor.doc, Doc.json, Doc.membersJson, AccessorDraft.ofJson, accessorMembers,
        Json.string?, Kind.ofJson?_doc, Parsed.ofOption, Parsed.unlessNull_doc, h v rfl, Except.map,
        Parsed.once_none, Parsed.ok_bind]
      rfl
  | live m =>
    simp only [Accessor.doc, LiveMethod.doc, Doc.json, Doc.membersJson, AccessorDraft.ofJson,
      accessorMembers, Json.string?, Kind.ofJson?_doc, Parsed.ofOption, Parsed.once_none,
      Parsed.ok_bind]
    rfl

private theorem accessorListOfJson_map {as : List Accessor}
    (h : ∀ a ∈ as, ∀ v, a.default? = some v → Value.ofJson v.doc.json = .ok v.restate) :
    accessorListOfJson ((as.map Accessor.doc).map Doc.json) = .ok (as.map Accessor.redraft) := by
  induction as with
  | nil => rfl
  | cons a as ih =>
    obtain ⟨first, rest⟩ := List.forall_mem_cons.1 h
    rw [List.map_cons, List.map_cons, accessorListOfJson, AccessorDraft.ofJson_doc first,
      Parsed.ok_bind, ih rest]
    rfl

private theorem map_on_redraft (t : TypeDecl) :
    (t.accessors.map Accessor.redraft).map (·.on t.name) = t.restate.accessors := by
  rw [List.map_map, TypeDecl.accessors_restate]
  exact List.map_congr_left fun a _ ↦ a.on_redraft t.name

/-- A type is read back if its default values are. -/
theorem TypeDecl.ofJson_doc {t : TypeDecl} (h : ∀ a ∈ t.accessors, ∀ v, a.default? = some v →
    Value.ofJson v.doc.json = .ok v.restate) : TypeDecl.ofJson t.doc.json = .ok t.restate := by
  rw [doc_eq, ofJson_typeDoc (accessorListOfJson_map h), map_on_redraft, restate_eq]

theorem LiveType.ofJson_doc (t : LiveType) : TypeDecl.ofJson t.doc.json = .ok t.stated := by
  have described : t.describe.restate = t.stated := by
    rw [TypeDecl.restate_eq, LiveType.describe, List.map_map]
    rfl
  rw [← doc_describe, TypeDecl.ofJson_doc, described]
  intro a ha v hv
  obtain ⟨m, -, rfl⟩ := List.mem_map.1 ha
  cases hv

/-- A constant is read back if its type is. -/
theorem Constant.ofJson_object {t : Doc} {type : TypeDecl} (h : TypeDecl.ofJson t.json = .ok type)
    (name : String) :
    Constant.ofJson (Doc.object [("type", t), ("name", .string name)]).json =
      .ok (.stated type name) := by
  simp only [Doc.json, Doc.membersJson, Constant.ofJson, constantMembers, h, Json.string?,
    Parsed.ofOption, Parsed.once_none, Parsed.ok_bind]
  rfl

private theorem valuesOfJson_map {vs : List Value}
    (h : ∀ v ∈ vs, Value.ofJson v.doc.json = .ok v.restate) :
    valuesOfJson ((vs.map Value.doc).map Doc.json) = .ok (vs.map Value.restate) := by
  induction vs with
  | nil => rfl
  | cons v vs ih =>
    obtain ⟨first, rest⟩ := List.forall_mem_cons.1 h
    rw [List.map_cons, List.map_cons, valuesOfJson, first, Parsed.ok_bind, ih rest]
    rfl

private theorem entryListOfJson_map {es : List (String × Value)}
    (h : ∀ e ∈ es, Value.ofJson e.2.doc.json = .ok e.2.restate) :
    entryListOfJson ((es.map fun e ↦ (e.1, e.2.doc)).map fun m ↦ (m.1, m.2.json)) =
      .ok (es.map fun e ↦ (e.1, e.2.restate)) := by
  induction es with
  | nil => rfl
  | cons e es ih =>
    obtain ⟨first, rest⟩ := List.forall_mem_cons.1 h
    rw [List.map_cons, List.map_cons, entryListOfJson, first, Parsed.ok_bind, ih rest]
    rfl

/-! ### Annotations -/

/-- The annotation is of an annotation type with distinct accessor names, and has for each accessor
a value that conforms to its kind, in the order of declaration. -/
structure Stated.Proper (s : Stated) : Prop where
  sort : s.type.isAnnotationType = true
  distinct : s.type.accessorNames.Nodup
  arranged : s.Arranged
  takes : ∀ e ∈ s.values, s.type.Takes e

theorem Stated.Proper.names {s : Stated} (h : s.Proper) :
    Entries.names s.values = s.type.accessorNames :=
  h.arranged.trans (Entries.eraseDups_of_nodup h.distinct)

/-- What is proper is what a draft builds from its values. -/
theorem Stated.Proper.of_values {s : Stated} (h : s.Proper) :
    Stated.of s.type s.values = .ok s := by
  obtain ⟨t, values⟩ := s
  exact Stated.of_values h.sort h.distinct h.names h.takes

/-- **What a draft builds is proper**, if its type has distinct accessor names and default values
that conform. -/
theorem Stated.proper_of {t : TypeDecl} {values : List (String × Value)} {s : Stated}
    (h : Stated.of t values = .ok s) (distinct : t.accessorNames.Nodup)
    (defaults : ∀ a ∈ t.accessors, ∀ v, a.default? = some v → v.conforms a.kind = true) :
    s.Proper := by
  have arranged := arranged_of h
  have origin := @mem_of t values s h
  obtain ⟨takes, sort, es, -, rfl⟩ := of_eq_ok_iff.1 h
  refine ⟨sort, distinct, arranged, fun e he ↦ ?_⟩
  rcases origin he with given | ⟨a, ha, name, default⟩
  · exact takes e given
  · exact ⟨a, name ▸ TypeDecl.accessor?_of_mem distinct ha, defaults a ha e.2 default⟩

/-- What is proper is built again from what is read back. -/
theorem Stated.Proper.of_restate {s : Stated} (h : s.Proper) :
    Stated.of s.type.restate (Entries.ofList (s.values.map fun e ↦ (e.1, e.2.restate))) =
      .ok s.restate := by
  have names : Entries.names (s.values.map fun e ↦ (e.1, e.2.restate)) =
      s.type.restate.accessorNames := by
    rw [TypeDecl.accessorNames_restate, ← h.names]
    simp [Entries.names]
  have distinct : s.type.restate.accessorNames.Nodup := by
    rw [TypeDecl.accessorNames_restate]
    exact h.distinct
  have takes : ∀ e ∈ s.values.map fun e ↦ (e.1, e.2.restate), s.type.restate.Takes e := by
    intro _ hmem
    obtain ⟨e, he, rfl⟩ := List.mem_map.1 hmem
    exact (h.takes e he).restate
  have sort : s.type.restate.isAnnotationType = true := by
    rw [TypeDecl.isAnnotationType_restate, h.sort]
  rw [Entries.ofList_of_nodup (names ▸ distinct), Stated.restate_eq]
  exact Stated.of_values sort distinct names takes

/-- A proper annotation is read back if its type and its values are. -/
theorem Stated.Proper.ofJson_doc {s : Stated} (h : s.Proper)
    (type : TypeDecl.ofJson s.type.doc.json = .ok s.type.restate)
    (values : ∀ e ∈ s.values, Value.ofJson e.2.doc.json = .ok e.2.restate) :
    Stated.ofJson s.doc.json = .ok s.restate := by
  rw [Stated.doc_eq, Doc.json, Doc.membersJson_eq_map]
  simp only [List.map_cons, List.map_nil, Doc.json, Doc.membersJson_eq_map, Stated.ofJson,
    statedMembers, type, entriesOfJson, entryListOfJson_map values, Parsed.once_none,
    Parsed.ok_bind]
  change Parsed.built (Stated.of s.type.restate
    (Entries.ofList (s.values.map fun e ↦ (e.1, e.2.restate)))) = .ok s.restate
  rw [h.of_restate]
  rfl

namespace Part

/-- The part can be written so that it is read back: it is neither a live annotation nor a
floating-point number, and if it is a stated annotation then it is proper. -/
def Portable : Part → Prop
  | value (.float _) => False
  | value (.double _) => False
  | stated s => s.Proper
  | live _ => False
  | _ => True

/-- The part is read back from its written form. -/
def ReadsBack : Part → Prop
  | value v => Value.ofJson v.doc.json = .ok v.restate
  | type t => TypeDecl.ofJson t.doc.json = .ok t.restate
  | stated s => Stated.ofJson s.doc.json = .ok s.restate
  | live _ => False

end Part

/-- Behind the word of its category, a value is read by itself. -/
theorem Value.ofJson_tagged (c : Category) (j : Json) :
    Value.ofJson (.tagged c j) = match c with
    | .boolean => Parsed.ofOption (j.bool?.map .boolean)
    | .byte => Parsed.ofOption (j.int8?.map .byte)
    | .char => Parsed.ofOption (j.char?.map .char)
    | .short => Parsed.ofOption (j.int16?.map .short)
    | .int => Parsed.ofOption (j.int32?.map .int)
    | .long => Parsed.ofOption (j.int64?.map .long)
    | .float => Parsed.ofOption (j.binary32?.map .float)
    | .double => Parsed.ofOption (j.binary64?.map .double)
    | .string => Parsed.ofOption (j.string?.map .string)
    | .type => TypeDecl.ofJson j >>= fun t ↦ pure (.type t)
    | .constant => Constant.ofJson j >>= fun c ↦ pure (.constant c)
    | .nested => Stated.ofJson j >>= fun s ↦ pure (.nested (.stated s))
    | .array =>
      match j with
      | .array vs => valuesOfJson vs >>= fun vs ↦ pure (.array vs)
      | _ => .error .malformed := by
  cases c <;> cases j <;> rfl

/-- **Every part is read back** in which all parts are portable. -/
theorem Part.readsBack_of_portable {p : Part} (h : p.Throughout Portable) : p.ReadsBack := by
  induction p, h using Part.throughout_rec with
  | scalar v h hv =>
    have portable := h.self
    rw [ReadsBack]
    cases v with
    | boolean b => rfl
    | byte n =>
      simp only [Value.doc, Doc.json_tagged, Doc.json, Value.ofJson_tagged, Json.int8?_int]
      rfl
    | char c =>
      simp only [Value.doc, Doc.json_tagged, Doc.json, Value.ofJson_tagged, Json.char?_string]
      rfl
    | short n =>
      simp only [Value.doc, Doc.json_tagged, Doc.json, Value.ofJson_tagged, Json.int16?_int]
      rfl
    | int n =>
      simp only [Value.doc, Doc.json_tagged, Doc.json, Value.ofJson_tagged, Json.int32?_int]
      rfl
    | long n =>
      simp only [Value.doc, Doc.json_tagged, Doc.json, Value.ofJson_tagged, Json.int64?_int]
      rfl
    | string s => rfl
    | float x => exact portable.elim
    | double x => exact portable.elim
    | _ => exact hv.elim
  | typed t _ _ ih =>
    have ih : TypeDecl.ofJson t.doc.json = .ok t.restate := ih
    simp only [ReadsBack, Value.doc, Doc.json_tagged, Value.ofJson_tagged, ih]
    rfl
  | constant t n _ _ ih =>
    have ih : TypeDecl.ofJson t.doc.json = .ok t.restate := ih
    simp only [ReadsBack, Value.doc, Constant.doc, Doc.json_tagged, Value.ofJson_tagged,
      Constant.ofJson_object ih]
    rfl
  | liveConstant c _ =>
    simp only [ReadsBack, Value.doc, Constant.doc, Doc.json_tagged, Value.ofJson_tagged,
      Constant.ofJson_object c.type.ofJson_doc]
    rfl
  | nested s _ _ ih =>
    have ih : Stated.ofJson s.doc.json = .ok s.restate := ih
    simp only [ReadsBack, Value.doc, Doc.json_tagged, Value.ofJson_tagged, Description.doc, ih]
    rfl
  | liveNested l _ h _ => exact h.self.elim
  | array vs _ ih =>
    have elements := valuesOfJson_map fun v hv ↦ (ih v hv).2
    simp only [ReadsBack, Value.doc, Doc.json_tagged, Doc.json, Doc.elementsJson_eq_map,
      Value.ofJson_tagged, valueDocs_eq_map, elements, Value.restate, restateValues_eq_map]
    rfl
  | type t _ ih => exact TypeDecl.ofJson_doc fun a ha v hv ↦ (ih a ha v hv).2
  | stated s h _ type values =>
    exact Stated.Proper.ofJson_doc h.self type fun e he ↦ (values e he).2
  | live l h => exact h.self.elim

/-! ### Documents without floating-point numbers -/

/-- An object with one member. -/
theorem Doc.NoFloats.member {d : Doc} (h : d.NoFloats) (name : String) :
    (Doc.object [(name, d)]).NoFloats :=
  .object fun m hm ↦ by
    obtain rfl := List.mem_singleton.1 hm
    exact h

/-- An object with two members. -/
theorem Doc.NoFloats.pair {m n : String × Doc} (first : m.2.NoFloats) (second : n.2.NoFloats) :
    (Doc.object [m, n]).NoFloats := by
  refine .object fun x hx ↦ ?_
  rcases List.mem_pair.1 hx with rfl | rfl
  · exact first
  · exact second

theorem Kind.noFloats_doc (k : Kind) : k.doc.NoFloats := by
  induction k with
  | array k ih => exact ih.member _
  | enumeration n => exact Doc.NoFloats.member (.string n) _
  | nested n => exact Doc.NoFloats.member (.string n) _
  | _ => exact .string _

private theorem noFloats_typeDoc {name : String} {sort : TypeSort} {accessors : List Doc}
    {constants : List String} (h : ∀ a ∈ accessors, a.NoFloats) :
    (typeDoc name sort accessors constants).NoFloats := by
  have list : ∀ name (ds : List Doc), (∀ d ∈ ds, d.NoFloats) →
      ∀ m ∈ optionalList name ds, m.2.NoFloats := by
    intro name ds noFloats m hm
    cases ds with
    | nil => cases hm
    | cons d ds =>
      obtain rfl := List.mem_singleton.1 hm
      exact .array noFloats
  refine .object fun m hm ↦ ?_
  simp only [List.cons_append, List.mem_cons, List.mem_append] at hm
  rcases hm with rfl | rfl | hm | hm
  · exact .string _
  · exact .string _
  · exact list _ _ h m hm
  · refine list _ _ (fun c hc ↦ ?_) m hm
    obtain ⟨s, -, rfl⟩ := List.mem_map.1 hc
    exact .string s

theorem LiveMethod.noFloats_doc (m : LiveMethod) : m.doc.NoFloats :=
  Doc.NoFloats.pair (.string _) m.kind.noFloats_doc

theorem LiveType.noFloats_doc (t : LiveType) : t.doc.NoFloats :=
  noFloats_typeDoc fun a ha ↦ by
    obtain ⟨m, -, rfl⟩ := List.mem_map.1 ha
    exact m.noFloats_doc

private theorem Accessor.noFloats_doc {a : Accessor}
    (h : ∀ v, a.default? = some v → v.doc.NoFloats) : a.doc.NoFloats := by
  cases a with
  | stated o n k d =>
    cases d with
    | none => exact Doc.NoFloats.pair (.string _) k.noFloats_doc
    | some v =>
      refine .object fun m hm ↦ ?_
      simp only [List.mem_cons, List.not_mem_nil, or_false] at hm
      rcases hm with rfl | rfl | rfl
      · exact .string _
      · exact k.noFloats_doc
      · exact h v rfl
  | live m => exact m.noFloats_doc

/-- What is portable is written without floating-point numbers. -/
theorem Part.noFloats_doc {p : Part} (h : p.Throughout Portable) : p.doc.NoFloats := by
  induction p, h using Part.throughout_rec with
  | scalar v h hv =>
    have portable := h.self
    cases v with
    | boolean b => exact Doc.NoFloats.member (.bool b) _
    | byte n => exact Doc.NoFloats.member (.int _) _
    | char c => exact Doc.NoFloats.member (.string _) _
    | short n => exact Doc.NoFloats.member (.int _) _
    | int n => exact Doc.NoFloats.member (.int _) _
    | long n => exact Doc.NoFloats.member (.int _) _
    | string s => exact Doc.NoFloats.member (.string s) _
    | float x => exact portable.elim
    | double x => exact portable.elim
    | _ => exact hv.elim
  | typed t _ _ ih => exact Doc.NoFloats.member ih _
  | constant t n _ _ ih => exact Doc.NoFloats.member (Doc.NoFloats.pair ih (.string n)) _
  | liveConstant c _ =>
    exact Doc.NoFloats.member (Doc.NoFloats.pair c.type.noFloats_doc (.string _)) _
  | nested s _ _ ih => exact Doc.NoFloats.member ih _
  | liveNested l _ h _ => exact h.self.elim
  | array vs _ ih =>
    rw [doc, Value.doc, valueDocs_eq_map]
    refine Doc.NoFloats.member (.array fun _ hmem ↦ ?_) _
    obtain ⟨v, hv, rfl⟩ := List.mem_map.1 hmem
    exact (ih v hv).2
  | type t _ ih =>
    rw [doc, TypeDecl.doc_eq]
    refine noFloats_typeDoc fun _ hmem ↦ ?_
    obtain ⟨a, ha, rfl⟩ := List.mem_map.1 hmem
    exact a.noFloats_doc fun v hv ↦ (ih a ha v hv).2
  | stated s _ _ type values =>
    rw [doc, Stated.doc_eq]
    refine Doc.NoFloats.pair type (.object fun _ hmem ↦ ?_)
    obtain ⟨e, he, rfl⟩ := List.mem_map.1 hmem
    exact (values e he).2
  | live l h => exact h.self.elim

theorem Part.Portable.notLive (p : Part) (h : p.Portable) : p.NotLive := by
  cases p with
  | live l => exact h.elim
  | _ => trivial

/-! ### Reading what was written -/

section ReadWrite

open Annotations.Part (Portable)

private theorem Constant.noFloats_doc {c : Constant}
    (h : (Part.value (.constant c)).Throughout Portable) : c.doc.NoFloats := by
  cases c with
  | stated t n =>
    exact Doc.NoFloats.pair (Part.noFloats_doc (Part.throughout_constant_iff.1 h).2) (.string n)
  | live c => exact Doc.NoFloats.pair c.type.noFloats_doc (.string c.name)

private theorem Constant.ofJson_doc {c : Constant}
    (h : (Part.value (.constant c)).Throughout Portable) :
    Constant.ofJson c.doc.json = .ok c.restate := by
  cases c with
  | stated t n =>
    exact ofJson_object (Part.readsBack_of_portable (Part.throughout_constant_iff.1 h).2) n
  | live c => exact ofJson_object c.type.ofJson_doc c.name

private theorem Constant.doc_restate (c : Constant) : c.restate.doc = c.doc := by
  have tagged : Doc.tagged .constant c.restate.doc = Doc.tagged .constant c.doc :=
    Part.doc_restate (.value (.constant c))
  simpa [Doc.tagged] using tagged

variable {L : Json.Layer}

/-- Say that a thing is read back from the tree of its document, and what comes back has the same
document. Then it is read back from the text of the document, and written as the same text. -/
private theorem read_print_of (back : L.ReadsBack) {α : Type} {doc : α → Doc}
    {ofJson : Json → Parsed α} {x y : α} {before after : Eval String}
    (noFloats : (doc x).NoFloats) (fits : L.fits (doc x)) (read : ofJson (doc x).json = .ok y)
    (same : doc y = doc x) (first : before = pure (L.print (doc x)))
    (second : after = pure (L.print (doc y))) :
    ∃ text, before = pure text ∧ (Parsed.json L text >>= ofJson) = .ok y ∧ after = pure text := by
  refine ⟨L.print (doc x), first, ?_, same ▸ second⟩
  rw [Parsed.json, back _ noFloats fits]
  exact read

/-- **In every layer that reads back what it prints, all that is written is read back**, as far as
it is not nested too deeply for the layer. Let no part be a live annotation or a floating-point
number, and let each stated annotation be proper, as drafts build them. Then writing succeeds under
every limit and runs nothing; from the text, what was written is read back, with live constants and
accessors having become stated ones; and this is written as the same text. -/
theorem Part.read_print (back : L.ReadsBack) (limit : Nat) :
    (∀ v : Value, (Part.value v).Throughout Portable → L.fits v.doc → ∃ text,
      v.writeIn L limit = pure text ∧ Value.readIn L text = .ok v.restate ∧
        v.restate.writeIn L limit = pure text) ∧
    (∀ c : Constant, (Part.value (.constant c)).Throughout Portable → L.fits c.doc → ∃ text,
      c.writeIn L limit = pure text ∧ Constant.readIn L text = .ok c.restate ∧
        c.restate.writeIn L limit = pure text) ∧
    (∀ t : TypeDecl, (Part.type t).Throughout Portable → L.fits t.doc → ∃ text,
      t.writeIn L limit = pure text ∧ TypeDecl.readIn L text = .ok t.restate ∧
        t.restate.writeIn L limit = pure text) ∧
    (∀ s : Stated, (Part.stated s).Throughout Portable → L.fits s.doc → ∃ text,
      (Description.stated s).writeIn L limit = pure text ∧ Stated.readIn L text = .ok s.restate ∧
        (Description.stated s.restate).writeIn L limit = pure text) := by
  have notLive {p : Part} (h : p.Throughout Portable) := h.mono Portable.notLive
  refine ⟨fun v h fits ↦ ?_, fun c h fits ↦ ?_, fun t h fits ↦ ?_, fun s h fits ↦ ?_⟩
  · exact read_print_of back (noFloats_doc h) fits (readsBack_of_portable h)
      (doc_restate (.value v))
      (Value.writeIn_of_notLive L limit (notLive h))
      (Value.writeIn_of_notLive L limit (notLive_restate (notLive h)))
  · exact read_print_of back (Constant.noFloats_doc h) fits (Constant.ofJson_doc h) c.doc_restate
      (Constant.writeIn_of_notLive L limit (notLive h))
      (Constant.writeIn_of_notLive L limit (notLive_restate (notLive h)))
  · exact read_print_of back (noFloats_doc h) fits (readsBack_of_portable h)
      (doc_restate (.type t))
      (TypeDecl.writeIn_of_notLive L limit (notLive h))
      (TypeDecl.writeIn_of_notLive L limit (notLive_restate (notLive h)))
  · exact read_print_of back (noFloats_doc h) fits (readsBack_of_portable h)
      (doc_restate (.stated s))
      (Description.writeIn_of_notLive L limit (notLive h))
      (Description.writeIn_of_notLive L limit (notLive_restate (notLive h)))

/-- In the standard layer the tree of every document is read from its text. -/
theorem Parsed.json_write (d : Doc) : Parsed.json .standard d.write = .ok d.json :=
  congrArg Parsed.ofOption d.read?_write

/-- **What is written is read back** in the standard layer, which does so with every document. -/
theorem Part.read_write (limit : Nat) :
    (∀ v : Value, (Part.value v).Throughout Portable → ∃ text,
      v.write limit = pure text ∧ Value.read text = .ok v.restate ∧
        v.restate.write limit = pure text) ∧
    (∀ c : Constant, (Part.value (.constant c)).Throughout Portable → ∃ text,
      c.write limit = pure text ∧ Constant.read text = .ok c.restate ∧
        c.restate.write limit = pure text) ∧
    (∀ t : TypeDecl, (Part.type t).Throughout Portable → ∃ text,
      t.write limit = pure text ∧ TypeDecl.read text = .ok t.restate ∧
        t.restate.write limit = pure text) ∧
    (∀ s : Stated, (Part.stated s).Throughout Portable → ∃ text,
      (Description.stated s).write limit = pure text ∧ Stated.read text = .ok s.restate ∧
        (Description.stated s.restate).write limit = pure text) := by
  obtain ⟨values, constants, types, annotations⟩ :=
    read_print Json.Layer.readsBack_standard limit
  exact ⟨fun v h ↦ values v h trivial, fun c h ↦ constants c h trivial,
    fun t h ↦ types t h trivial, fun s h ↦ annotations s h trivial⟩

end ReadWrite

/-! ### A note -/

/-- Accessors for a text, for a number with a default value, for a constant and for nested
annotations. -/
def noteDrafts : List AccessorDraft :=
  [⟨"text", .string, none⟩, ⟨"level", .int, some (.int 3)⟩,
    ⟨"color", .enumeration "com.example.Color", none⟩,
    ⟨"marks", .array (.nested "com.example.Marker"), none⟩]

/-- A type with these accessors. -/
def noteType : TypeDecl := .ofDrafts "com.example.Note" noteDrafts

/-- A marker of the live type that is stated. -/
def statedMark : Stated where
  type := Marker.liveType.describe
  values := [("value", .int 7)]

/-- A note with a live constant, and with a nested annotation of a live type. -/
def note : Stated where
  type := noteType
  values :=
    [("text", .string "say \"hi\"\n"), ("level", .int (-4)),
      ("color", .constant (.live (.color .red))), ("marks", .array [.nested (.stated statedMark)])]

theorem portable_statedMark : (Part.stated statedMark).Throughout Part.Portable := by
  have proper : statedMark.Proper := by
    refine ⟨rfl, by decide, by decide, fun e he ↦ ?_⟩
    obtain rfl := List.mem_singleton.1 he
    exact ⟨_, rfl, rfl⟩
  refine Part.throughout_stated_iff.2 ⟨proper, Part.throughout_type_iff.2 ⟨trivial, ?_⟩, ?_⟩
  · intro a ha v hv
    obtain rfl := List.mem_singleton.1 ha
    cases hv
  · intro e he
    obtain rfl := List.mem_singleton.1 he
    have scalar : (Value.int 7).IsScalar := trivial
    exact (Part.throughout_scalar_iff scalar).2 trivial

theorem portable_noteType : (Part.type noteType).Throughout Part.Portable := by
  refine Part.throughout_type_iff.2 ⟨trivial, fun a ha v hv ↦ ?_⟩
  have three : v = .int 3 := by
    simp only [noteType, noteDrafts, TypeDecl.ofDrafts, AccessorDraft.on, List.map_cons,
      List.map_nil, List.mem_cons, List.not_mem_nil, or_false] at ha
    rcases ha with rfl | rfl | rfl | rfl <;> cases hv
    rfl
  have scalar : (Value.int 3).IsScalar := trivial
  exact three ▸ (Part.throughout_scalar_iff scalar).2 trivial

theorem proper_note : note.Proper := by
  refine ⟨rfl, by decide, by decide, ?_⟩
  simp only [note, List.forall_mem_cons, List.not_mem_nil, false_imp_iff, implies_true, and_true]
  exact ⟨⟨_, rfl, rfl⟩, ⟨_, rfl, rfl⟩, ⟨_, rfl, by decide⟩, ⟨_, rfl, by decide⟩⟩

theorem portable_note : (Part.stated note).Throughout Part.Portable := by
  have scalar {v : Value} (h : v.IsScalar) (portable : (Part.value v).Portable) :=
    (Part.throughout_scalar_iff h).2 portable
  have marks : (Part.value (.array [.nested (.stated statedMark)])).Throughout Part.Portable := by
    refine Part.throughout_array_iff.2 ⟨trivial, fun v hv ↦ ?_⟩
    obtain rfl := List.mem_singleton.1 hv
    exact Part.throughout_nested_iff.2 ⟨trivial, portable_statedMark⟩
  refine Part.throughout_stated_iff.2 ⟨proper_note, portable_noteType, ?_⟩
  simp only [note, List.forall_mem_cons, List.not_mem_nil, false_imp_iff, implies_true, and_true]
  exact ⟨scalar trivial trivial, scalar trivial trivial,
    Part.throughout_liveConstant_iff.2 trivial, marks⟩

/-- The note, its type, its constant and the note as a value are written and read back. -/
theorem Part.read_write_note :
    (∃ text, (Value.nested (.stated note)).write 1 = pure text ∧
      Value.read text = .ok (.nested (.stated note.restate))) ∧
    (∃ text, (Constant.live (.color .red)).write 1 = pure text ∧
      Constant.read text = .ok (.stated Color.liveType.stated "RED")) ∧
    (∃ text, noteType.write 1 = pure text ∧ TypeDecl.read text = .ok noteType) ∧
    (Part.stated note).Throughout Portable ∧
    ∃ text, (Description.stated note).write 1 = pure text ∧ Stated.read text = .ok note.restate ∧
      (Description.stated note.restate).write 1 = pure text := by
  obtain ⟨values, constants, types, annotations⟩ := Part.read_write 1
  obtain ⟨text, write, read, -⟩ :=
    values (.nested (.stated note)) (throughout_nested_iff.2 ⟨trivial, portable_note⟩)
  obtain ⟨text', write', read', -⟩ :=
    constants (.live (.color .red)) (throughout_liveConstant_iff.2 trivial)
  obtain ⟨text'', write'', read'', -⟩ := types noteType portable_noteType
  exact ⟨⟨text, write, read⟩, ⟨text', write', read'⟩, ⟨text'', write'', read''⟩, portable_note,
    annotations note portable_note⟩

end Annotations
