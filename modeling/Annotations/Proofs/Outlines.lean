import Annotations.Proofs.Limits

/-!
# What is shown above a depth

Showing goes on where the other recursions stop: an accessor that fails is shown by its error, and
an annotation at the limit by its name. So the texts under two limits, or those of two annotations
that differ in some failures, have much in common. What it is can be said without a full text, which
an endless annotation has not.

* The **outline** of an annotation at a depth (`Description.outline`) is what is shown of the levels
  above, with a place for each annotation that is enclosed at that depth
  (`Description.places_outline`), that is, to which a chain of that length leads
  (`Description.mem_enclosedAt_iff`). It makes no use of a limit. A text under any greater limit is
  the outline with a text in each place (`Description.renderWithin_add`); under the depth itself as
  the limit these are cut to the names, and all else stays as it is.
* **An accessor that fails is shown in its own slot only.** Two annotations that give alike values,
  except where one of them fails, are shown by texts that are the same but for the slots of those
  accessors (`Description.renderWithin_sameBut`).

Both go by the levels, one at a time: a level is shown by filling a frame
(`Description.renderWithin_succ`), and its slots do not depend on each other.
-/

namespace Annotations

/-! ### Outlines -/

/-- A piece of what is shown: a text, or the place of an annotation. -/
inductive Piece where
  | text (s : String)
  | place (d : Description)

/-- What is shown, piece by piece. -/
abbrev Outline := List Piece

namespace Piece

/-- The text of a piece, with that of an annotation given. -/
def fill (f : Description → String) : Piece → String
  | text s => s
  | place d => f d

/-- The annotation that has its place here. -/
def place? : Piece → Option Description
  | text _ => none
  | place d => some d

/-- The piece with an outline in the place of an annotation. -/
def expand (g : Description → Outline) : Piece → Outline
  | text s => [text s]
  | place d => g d

end Piece

namespace Outline

variable {f g : Description → String}

/-- The text of an outline, with those of the annotations given. -/
def fill (f : Description → String) (o : Outline) : String :=
  String.join (o.map (Piece.fill f))

/-- The annotations that have a place in the outline, in order. -/
def places (o : Outline) : List Description :=
  o.filterMap Piece.place?

/-- The outline with an outline in the place of each annotation. -/
def expand (g : Description → Outline) (o : Outline) : Outline :=
  o.flatMap (Piece.expand g)

@[simp] theorem fill_nil : fill f [] = "" := rfl

@[simp] theorem fill_cons (p : Piece) (o : Outline) : fill f (p :: o) = p.fill f ++ fill f o := by
  simp [fill]

@[simp] theorem fill_append (o o' : Outline) : fill f (o ++ o') = fill f o ++ fill f o' := by
  simp [fill]

/-- Outlines with a text between them. -/
theorem fill_intercalate (s : String) (os : List Outline) :
    fill f (List.intercalate [.text s] os) = Text.separated s (os.map (fill f)) := by
  induction os with
  | nil => rfl
  | cons o os ih =>
    cases os with
    | nil => simp
    | cons o' os =>
      rw [List.intercalate_cons_cons, fill_append, fill_append, ih]
      simp [Text.separated, Piece.fill]

/-- Only what is shown of the annotations in the places matters. -/
theorem fill_congr {o : Outline} (h : ∀ d ∈ places o, f d = g d) : fill f o = fill g o := by
  induction o with
  | nil => rfl
  | cons p o ih =>
    cases p with
    | text s =>
      rw [fill_cons, fill_cons, ih h]
      rfl
    | place d =>
      obtain ⟨first, rest⟩ := List.forall_mem_cons.1 h
      rw [fill_cons, fill_cons, ih rest, Piece.fill, Piece.fill, first]

/-- An outline that stands in a place is shown there. -/
theorem fill_expand (k : Description → Outline) (o : Outline) :
    fill f (expand k o) = fill (fun d ↦ fill f (k d)) o := by
  induction o with
  | nil => rfl
  | cons p o ih =>
    rw [expand, List.flatMap_cons, fill_append, fill_cons, ← ih]
    cases p <;> simp [Piece.expand, Piece.fill, expand]

@[simp] theorem places_nil : places [] = [] := rfl

@[simp] theorem places_text_cons (s : String) (o : Outline) :
    places (.text s :: o) = places o := rfl

@[simp] theorem places_place_cons (d : Description) (o : Outline) :
    places (.place d :: o) = d :: places o := rfl

@[simp] theorem places_append (o o' : Outline) : places (o ++ o') = places o ++ places o' :=
  List.filterMap_append ..

/-- The texts between outlines have no places. -/
theorem places_intercalate (s : String) (os : List Outline) :
    places (List.intercalate [.text s] os) = os.flatMap places := by
  induction os with
  | nil => rfl
  | cons o os ih =>
    cases os with
    | nil => simp
    | cons o' os =>
      rw [List.intercalate_cons_cons, places_append, places_append, ih, List.flatMap_cons]
      simp

theorem places_expand (k : Description → Outline) (o : Outline) :
    places (expand k o) = (places o).flatMap fun d ↦ places (k d) := by
  induction o with
  | nil => rfl
  | cons p o ih =>
    rw [expand, List.flatMap_cons, places_append, ← expand, ih]
    cases p with
    | text s => rfl
    | place d => rw [places_place_cons, List.flatMap_cons, Piece.expand]

end Outline

/-! ### Values -/

namespace Value

mutual

/-- What is shown of a value, with a place for each annotation in it. -/
def outline : Value → Outline
  | nested d => [.place d]
  | array vs => .text "\x7b" :: (List.intercalate [.text ", "] (outlineAll vs) ++ [.text "\x7d"])
  | v => [.text (renderBy (fun _ ↦ pure "") v).value]

/-- What is shown of the values of a list. -/
def outlineAll : List Value → List Outline
  | [] => []
  | v :: vs => outline v :: outlineAll vs

end

variable {f : Description → Traced String}

private theorem renderAllBy_eq_fill {vs : List Value}
    (h : ∀ v ∈ vs, (renderBy f v).value = Outline.fill (fun d ↦ (f d).value) v.outline) :
    (renderAllBy f vs).value = (outlineAll vs).map (Outline.fill fun d ↦ (f d).value) := by
  induction vs with
  | nil => rfl
  | cons v vs ih =>
    obtain ⟨first, rest⟩ := List.forall_mem_cons.1 h
    simp [renderAllBy, outlineAll, first, ih rest]

/-- **A value is shown by filling its outline.** -/
theorem renderBy_eq_fill (v : Value) :
    (renderBy f v).value = Outline.fill (fun d ↦ (f d).value) v.outline := by
  induction v using array_induction with
  | other v hv =>
    cases v with
    | nested d => simp [renderBy, outline, Piece.fill]
    | array vs => exact absurd rfl (hv vs)
    | _ => simp [renderBy, outline, Piece.fill]
  | array vs ih =>
    rw [outline, Outline.fill_cons, Outline.fill_append, Outline.fill_intercalate,
      ← renderAllBy_eq_fill ih]
    simp [renderBy, Piece.fill, String.append_assoc]

private theorem places_outlineAll {vs : List Value}
    (h : ∀ v ∈ vs, Outline.places v.outline = v.held) :
    (outlineAll vs).flatMap Outline.places = heldAll vs := by
  induction vs with
  | nil => rfl
  | cons v vs ih =>
    obtain ⟨first, rest⟩ := List.forall_mem_cons.1 h
    rw [outlineAll, List.flatMap_cons, first, ih rest, heldAll]

/-- The places are those of the annotations in the value, in order. -/
theorem places_outline (v : Value) : Outline.places v.outline = v.held := by
  induction v using array_induction with
  | other v hv =>
    cases v with
    | array vs => exact absurd rfl (hv vs)
    | _ => rfl
  | array vs ih =>
    rw [outline, Outline.places_text_cons, Outline.places_append, Outline.places_intercalate,
      places_outlineAll ih, held]
    simp

end Value

/-! ### Annotations -/

namespace Description

/-- What is shown for an accessor, with a place for each annotation in its value. -/
def slotOutline (d : Description) (a : Accessor) : Outline :=
  .text (a.name ++ "=") ::
    match (d.get a.handle).result with
    | .ok v => v.outline
    | .error e => [.text ("<" ++ e.message ++ ">")]

/-- What is shown of an annotation, with a place for each annotation in its values. -/
def frame (d : Description) : Outline :=
  .text ("@" ++ d.typeName ++ "(") ::
    (List.intercalate [.text ", "] (d.type.accessors.map d.slotOutline) ++ [.text ")"])

/-- What is shown of an annotation down to a depth, with a place for each annotation that is
enclosed at that depth. -/
def outline : (depth : Nat) → Description → Outline
  | 0, d => [.place d]
  | n + 1, d => (frame d).expand (outline n)

/-- The annotations in the values that are reported under the accessors, in order. -/
def enclosed (d : Description) : List Description :=
  d.type.accessors.flatMap fun a ↦
    match (d.get a.handle).result with
    | .ok v => v.held
    | .error _ => []

/-- The annotations that are enclosed at a depth, in order. -/
def enclosedAt : (depth : Nat) → Description → List Description
  | 0, d => [d]
  | n + 1, d => d.enclosed.flatMap (enclosedAt n)

variable {d e : Description}

theorem renderSlot_eq_fill {f : Description → Traced String} (a : Accessor) :
    (renderSlot (Value.renderBy f) d a).value =
      Outline.fill (fun e ↦ (f e).value) (d.slotOutline a) := by
  rw [slotOutline]
  cases h : (d.get a.handle).result with
  | ok v => simp [renderSlot, h, Value.renderBy_eq_fill, Piece.fill]
  | error e => simp [renderSlot, h, Piece.fill]

/-- **One level is shown by filling its frame.** -/
theorem renderWithin_succ (room : Nat) (d : Description) :
    (renderWithin (room + 1) d).value =
      Outline.fill (fun e ↦ (renderWithin room e).value) d.frame := by
  have slots : d.type.accessors.map
      (fun a ↦ (renderSlot (Value.renderBy (renderWithin room)) d a).value) =
        (d.type.accessors.map d.slotOutline).map
          (Outline.fill fun e ↦ (renderWithin room e).value) := by
    rw [List.map_map]
    exact List.map_congr_left fun a _ ↦ renderSlot_eq_fill a
  simp [renderWithin, frame, Outline.fill_intercalate, slots, Piece.fill, String.append_assoc]

/-- **The levels above a depth are shown by filling an outline**, which does not depend on how many
levels are shown below. -/
theorem renderWithin_add (depth room : Nat) (d : Description) :
    (renderWithin (depth + room) d).value =
      Outline.fill (fun e ↦ (renderWithin room e).value) (outline depth d) := by
  induction depth generalizing d with
  | zero => simp [outline, Piece.fill]
  | succ n ih =>
    rw [Nat.succ_add, renderWithin_succ, outline, Outline.fill_expand]
    simp only [ih]

theorem places_slotOutline (a : Accessor) :
    Outline.places (d.slotOutline a) =
      match (d.get a.handle).result with
      | .ok v => v.held
      | .error _ => [] := by
  rw [slotOutline, Outline.places_text_cons]
  cases (d.get a.handle).result with
  | ok v => exact v.places_outline
  | error e => rfl

theorem places_frame (d : Description) : Outline.places d.frame = d.enclosed := by
  rw [frame, Outline.places_text_cons, Outline.places_append, Outline.places_intercalate,
    List.flatMap_map, enclosed]
  simp only [places_slotOutline]
  simp

/-- **The places at a depth are those of the annotations that are enclosed at it**, in order. -/
theorem places_outline (depth : Nat) (d : Description) :
    Outline.places (outline depth d) = d.enclosedAt depth := by
  induction depth generalizing d with
  | zero => rfl
  | succ n ih =>
    rw [outline, Outline.places_expand, places_frame, enclosedAt]
    simp only [ih]

theorem mem_enclosed_iff : e ∈ d.enclosed ↔ d.Encloses e := by
  simp only [enclosed, List.mem_flatMap]
  constructor
  · rintro ⟨a, ha, he⟩
    split at he
    · next v hv => exact ⟨v, ⟨a, ha, hv⟩, Value.mem_held_iff.1 he⟩
    · cases he
  · rintro ⟨v, ⟨a, ha, hv⟩, holds⟩
    refine ⟨a, ha, ?_⟩
    rw [hv]
    exact Value.mem_held_iff.2 holds

/-- What is enclosed at a depth is what the chains of that length lead to. -/
theorem mem_enclosedAt_iff (depth : Nat) :
    e ∈ d.enclosedAt depth ↔
      ∃ ds : List Description, ds.length = depth ∧ (d :: ds).IsChain Encloses ∧
        (d :: ds).getLast? = some e := by
  induction depth generalizing d with
  | zero =>
    rw [enclosedAt, List.mem_singleton]
    constructor
    · rintro rfl
      exact ⟨[], rfl, .singleton _, rfl⟩
    · rintro ⟨ds, length, -, last⟩
      obtain rfl := List.length_eq_zero_iff.1 length
      exact (Option.some.inj last).symm
  | succ n ih =>
    simp only [enclosedAt, List.mem_flatMap, mem_enclosed_iff, ih]
    constructor
    · rintro ⟨f, encloses, ds, rfl, chain, last⟩
      exact ⟨f :: ds, rfl, .cons_cons encloses chain, last⟩
    · rintro ⟨ds, length, chain, last⟩
      cases ds with
      | nil => cases length
      | cons f ds =>
        obtain ⟨encloses, rest⟩ := List.isChain_cons_cons.1 chain
        exact ⟨f, encloses, ds, by simpa using length, rest, last⟩

/-- There is an annotation at a depth exactly if a chain leads there. -/
theorem hasChain_iff (depth : Nat) (d : Description) :
    d.HasChain depth ↔ d.enclosedAt depth ≠ [] := by
  induction depth generalizing d with
  | zero => simp [hasChain_zero, enclosedAt]
  | succ n ih =>
    rw [hasChain_succ_iff, enclosedAt, Ne, List.flatMap_eq_nil_iff]
    simp only [← mem_enclosed_iff, ih, not_forall, exists_prop]

end Description

/-! ### Texts that are the same in part -/

/-- The two texts are the same but for parts that `P` relates. -/
inductive SameBut (P : String → String → Prop) : String → String → Prop
  | same (s : String) : SameBut P s s
  | part {s t : String} (related : P s t) : SameBut P s t
  | append {s t s' t' : String} (first : SameBut P s t) (rest : SameBut P s' t') :
    SameBut P (s ++ s') (t ++ t')

namespace SameBut

variable {P Q : String → String → Prop} {s t : String}

theorem mono (sub : ∀ s t, P s t → Q s t) (h : SameBut P s t) : SameBut Q s t := by
  induction h with
  | same s => exact .same s
  | part related => exact .part (sub _ _ related)
  | append _ _ first rest => exact .append first rest

/-- The same text may stand before and after. -/
theorem between (h : SameBut P s t) (before after : String) :
    SameBut P (before ++ s ++ after) (before ++ t ++ after) :=
  .append (.append (.same before) h) (.same after)

/-- The parts of two separated lists are compared one by one. -/
theorem separated {ss ts : List String} (h : List.Forall₂ (SameBut P) ss ts) (separator : String) :
    SameBut P (Text.separated separator ss) (Text.separated separator ts) := by
  induction h with
  | nil => exact .same _
  | cons first rest ih =>
    cases rest with
    | nil => exact first
    | cons _ _ => exact .append (.append first (.same separator)) ih

end SameBut

/-- Alike values are shown the same but for parts, if the annotations in them are. -/
theorem Value.renderBy_sameBut {P : String → String → Prop} {f g : Description → Traced String}
    {R : Description → Description → Prop}
    (inner : ∀ d e, R d e → SameBut P (f d).value (g e).value) {v w : Value} (h : Alike R v w) :
    SameBut P (renderBy f v).value (renderBy g w).value := by
  have all {vs ws : List Value}
      (h : List.Forall₂ (fun v w ↦ SameBut P (renderBy f v).value (renderBy g w).value) vs ws) :
      List.Forall₂ (SameBut P) (renderAllBy f vs).value (renderAllBy g ws).value := by
    induction h with
    | nil => exact .nil
    | cons first _ ih => exact .cons first ih
  induction h with
  | type name =>
    simp only [renderBy, name]
    exact .same _
  | constant same =>
    obtain ⟨typeName, name⟩ := Constant.same_iff.1 same
    simp only [renderBy, Constant.text, typeName, name]
    exact .same _
  | nested related => exact inner _ _ related
  | array length _ ih =>
    have elements := all (List.forall₂_iff_zip.2 ⟨length, fun hxy ↦ ih _ _ hxy⟩)
    exact (SameBut.separated elements ", ").between _ _
  | _ => exact .same _

/-! ### Accessors that fail -/

namespace Description

/-- The accessor cannot be read. -/
def Fails (d : Description) (a : Accessor) : Prop :=
  ∃ e, (d.get a.handle).result = .error e

/-- Within a number of levels, the two annotations have accessors of the same names, and give alike
values for them, except where one of the two fails. -/
def AlikeButFaults : (room : Nat) → Description → Description → Prop
  | 0, d, e => d.typeName = e.typeName
  | room + 1, d, e =>
    d.typeName = e.typeName ∧
      List.Forall₂ (fun a b ↦ a.name = b.name ∧
        (d.Fails a ∨ e.Fails b ∨
          ∃ v w, (d.get a.handle).result = .ok v ∧ (e.get b.handle).result = .ok w ∧
            Value.Alike (AlikeButFaults room) v w)) d.type.accessors e.type.accessors

/-- The two texts are what is shown for two accessors of which at least one cannot be read; these
are accessors of annotations that the two annotations reach. -/
def FaultySlots (d e : Description) (s t : String) : Prop :=
  ∃ d' e' a b room, d.Reaches d' ∧ e.Reaches e' ∧ a ∈ d'.type.accessors ∧ b ∈ e'.type.accessors ∧
    (d'.Fails a ∨ e'.Fails b) ∧
    s = (renderSlot (Value.renderBy (renderWithin room)) d' a).value ∧
    t = (renderSlot (Value.renderBy (renderWithin room)) e' b).value

variable {d e : Description}

theorem FaultySlots.of_encloses {d' e' : Description} (left : d.Encloses d')
    (right : e.Encloses e') {s t : String} (h : FaultySlots d' e' s t) : FaultySlots d e s t := by
  obtain ⟨d'', e'', a, b, room, hd, he, slots⟩ := h
  exact ⟨d'', e'', a, b, room, hd.head left, he.head right, slots⟩

/-- What is shown for two accessors of one name that give alike values, or of which one fails. -/
private theorem renderSlot_sameBut {room : Nat}
    (inner : ∀ d' e', AlikeButFaults room d' e' →
      SameBut (FaultySlots d' e') (renderWithin room d').value (renderWithin room e').value)
    {a b : Accessor} (ha : a ∈ d.type.accessors) (hb : b ∈ e.type.accessors)
    (name : a.name = b.name)
    (slots : d.Fails a ∨ e.Fails b ∨
      ∃ v w, (d.get a.handle).result = .ok v ∧ (e.get b.handle).result = .ok w ∧
        Value.Alike (AlikeButFaults room) v w) :
    SameBut (FaultySlots d e) (renderSlot (Value.renderBy (renderWithin room)) d a).value
      (renderSlot (Value.renderBy (renderWithin room)) e b).value := by
  rcases slots with fails | fails | ⟨v, w, hv, hw, alike⟩
  · exact .part ⟨d, e, a, b, room, .refl, .refl, ha, hb, .inl fails, rfl, rfl⟩
  · exact .part ⟨d, e, a, b, room, .refl, .refl, ha, hb, .inr fails, rfl, rfl⟩
  · have shown := Value.renderBy_sameBut (P := FaultySlots d e)
      (fun d' e' ⟨related, hd, he⟩ ↦ (inner d' e' related).mono fun _ _ ↦
        .of_encloses ⟨v, ⟨a, ha, hv⟩, hd⟩ ⟨w, ⟨b, hb, hw⟩, he⟩) alike.holding
    simp only [renderSlot, Traced.value_bind, Eval.value_attempt, hv, hw, Traced.value_pure, name]
    exact .append (.same _) shown

/-- **A failure is shown in its own slot, and nowhere else.** -/
theorem renderWithin_sameBut {room : Nat} (h : AlikeButFaults room d e) :
    SameBut (FaultySlots d e) (renderWithin room d).value (renderWithin room e).value := by
  induction room generalizing d e with
  | zero =>
    rw [renderWithin, renderWithin, show d.typeName = e.typeName from h]
    exact .same _
  | succ room ih =>
    obtain ⟨typeName, accessors⟩ := h
    obtain ⟨length, pairs⟩ := List.forall₂_iff_zip.1 accessors
    have slots : List.Forall₂ (fun a b ↦ SameBut (FaultySlots d e)
        (renderSlot (Value.renderBy (renderWithin room)) d a).value
        (renderSlot (Value.renderBy (renderWithin room)) e b).value)
        d.type.accessors e.type.accessors := by
      refine List.forall₂_iff_zip.2 ⟨length, fun {a b} hab ↦ ?_⟩
      obtain ⟨ha, hb⟩ := List.of_mem_zip hab
      obtain ⟨name, slots⟩ := pairs hab
      exact renderSlot_sameBut (fun _ _ ↦ ih) ha hb name slots
    have parts := SameBut.separated
      (List.forall₂_map_left_iff.2 (List.forall₂_map_right_iff.2 slots)) ", "
    simp only [renderWithin, Traced.value_bind, Traced.value_mapM, Traced.value_pure, typeName]
    exact parts.between _ _

/-! ### The limit -/

/-- What is shown of an annotation at the limit. -/
def cut (d : Description) : String :=
  "@" ++ d.typeName ++ "(...)"

/-- **What is shown is cut at the limit, and all above it is kept.**

* Under a greater limit, the text is the outline with the texts of the annotations at the smaller
  limit in their places. Under the smaller limit it is the same outline with these annotations cut.
  The places are those of all annotations at that depth, in order.
* Where no chain leads to that depth, the two texts are the same.
* The text of another annotation that gives alike values, except where one of the two fails, differs
  only in the slots of accessors that fail. -/
theorem cut_at_limit (d : Description) {limit limit' : Nat} (le : limit ≤ limit') :
    (d.render limit').value =
      Outline.fill (fun e ↦ (e.render (limit' - limit)).value) (outline limit d) ∧
    (d.render limit).value = Outline.fill cut (outline limit d) ∧
    Outline.places (outline limit d) = d.enclosedAt limit ∧
    (¬d.HasChain limit → (d.render limit).value = (d.render limit').value) ∧
    ∀ e, AlikeButFaults limit d e →
      SameBut (FaultySlots d e) (d.render limit).value (e.render limit).value := by
  have above (room : Nat) : (d.render (limit + room)).value =
      Outline.fill (fun e ↦ (e.render room).value) (outline limit d) :=
    renderWithin_add limit room d
  have greater := above (limit' - limit)
  rw [Nat.add_sub_cancel' le] at greater
  have smaller : (d.render limit).value = Outline.fill cut (outline limit d) := above 0
  refine ⟨greater, smaller, places_outline limit d, fun none ↦ ?_, fun e ↦ renderWithin_sameBut⟩
  rw [greater, smaller]
  refine Outline.fill_congr fun e he ↦ ?_
  rw [places_outline] at he
  exact absurd ((hasChain_iff limit d).2 (List.ne_nil_of_mem he)) none

/-- Refuses the depths of endless annotations. -/
def shy : Policy where
  audited := false
  refused := ["depth"]
  failing := []
  aliases := []
  plainNested := false

/-- The endless annotation at zero, read with that policy. -/
def shyLoop : Description :=
  .live ⟨.loop ⟨0⟩, shy.inspector⟩

/-- An endless annotation under the limits one and two, and beside one that hides its depth. -/
theorem cut_at_limit_loop :
    outline 1 (loopAt 0) =
      [.text "@com.example.Loop(", .text "depth=", .text "0", .text ", ", .text "next=",
        .place (loopAt 1), .text ")"] ∧
    ((loopAt 0).render 2).value = Outline.fill (fun e ↦ (e.render 1).value) (outline 1 (loopAt 0)) ∧
    ((loopAt 0).render 1).value = "@com.example.Loop(depth=0, next=@com.example.Loop(...))" ∧
    AlikeButFaults 1 (loopAt 0) shyLoop ∧
    SameBut (FaultySlots (loopAt 0) shyLoop)
      "@com.example.Loop(depth=0, next=@com.example.Loop(...))"
      ("@com.example.Loop(depth=<Cannot access annotation property com.example.Loop.depth()>, " ++
        "next=@com.example.Loop(...))") := by
  obtain ⟨greater, -, -, -, others⟩ := @cut_at_limit (loopAt 0) 1 2 (by omega)
  have alike : AlikeButFaults 1 (loopAt 0) shyLoop := by
    refine ⟨rfl, .cons ⟨rfl, .inr (.inl ⟨_, rfl⟩)⟩ (.cons ⟨rfl, .inr (.inr ?_)⟩ .nil)⟩
    exact ⟨_, _, rfl, rfl, .nested rfl⟩
  exact ⟨rfl, greater, rfl, alike, others shyLoop alike⟩

end Description

end Annotations
