import Annotations.Proofs.RoundTrip

/-!
# What the reader makes

Whatever is read from a JSON text, and from whichever text it is read: it is stated throughout, its
types own their accessors, and its annotations have been built by drafts of their types
(`Part.Built`). So what is known of drafts holds of every annotation that was read, and of those
inside of it.

The reader goes through the tree and is one recursion for each form of things. They are followed
together: `Json.Sound` says of a tree that all of them make such things from it, and is proved from
the elements and the members of the tree (`Json.sound`). It says nothing of which texts are read.
-/

namespace Annotations

namespace Part

/-- The part is stated; as a type it owns its accessors, and as an annotation a draft of its type
has built it. -/
def Built : Part → Prop
  | value (.constant (.live _)) => False
  | type t => t.Owned
  | stated s => ∃ values, Stated.of s.type values = .ok s
  | live _ => False
  | _ => True

end Part

/-- The default value of the accessor is built. -/
def AccessorDraft.Built (a : AccessorDraft) : Prop :=
  ∀ v, a.default? = some v → (Part.value v).Throughout Part.Built

/-- Whatever is read from the tree is built. -/
structure Json.Sound (j : Json) : Prop where
  value : ∀ v, Value.ofJson j = .ok v → (Part.value v).Throughout Part.Built
  values : ∀ vs us, j = .array vs → valuesOfJson vs = .ok us →
    ∀ u ∈ us, (Part.value u).Throughout Part.Built
  type : ∀ t, TypeDecl.ofJson j = .ok t → (Part.type t).Throughout Part.Built
  draft : ∀ a, AccessorDraft.ofJson j = .ok a → a.Built
  drafts : ∀ as, accessorsOfJson j = .ok as → ∀ a ∈ as, a.Built
  constant : ∀ c, Constant.ofJson j = .ok c → (Part.value (.constant c)).Throughout Part.Built
  stated : ∀ s, Stated.ofJson j = .ok s → (Part.stated s).Throughout Part.Built
  entries : ∀ es, entriesOfJson j = .ok es → ∀ e ∈ es, (Part.value e.2).Throughout Part.Built

/-! ### Steps of the reader -/

namespace Parsed

variable {α β : Type}

theorem bind_eq_ok {x : Parsed α} {f : α → Parsed β} {b : β} :
    (x >>= f) = .ok b ↔ ∃ a, x = .ok a ∧ f a = .ok b := by
  cases x <;> simp [bind, Except.bind]

theorem map_eq_ok {x : Parsed α} {f : α → β} {b : β} :
    x.map f = .ok b ↔ ∃ a, x = .ok a ∧ f a = b := by
  cases x <;> simp [Except.map]

theorem ofOption_eq_ok {o : Option α} {a : α} : ofOption o = .ok a ↔ o = some a := by
  cases o <;> simp [ofOption]

theorem once_eq_ok {before r : Option α} {read : Parsed α} (h : once before read = .ok r) :
    ∃ a, read = .ok a ∧ r = some a := by
  cases before with
  | some b => cases h
  | none =>
    obtain ⟨a, ha, rfl⟩ := map_eq_ok.1 h
    exact ⟨a, ha, rfl⟩

theorem unlessNull_eq_ok {j : Json} {r : Option α} {read : Parsed α}
    (h : unlessNull j read = .ok r) : r = none ∨ ∃ a, read = .ok a ∧ r = some a := by
  unfold unlessNull at h
  split at h
  · cases h
    exact .inl rfl
  · obtain ⟨a, ha, rfl⟩ := map_eq_ok.1 h
    exact .inr ⟨a, ha, rfl⟩

end Parsed

/-! ### Things with named parts -/

section Parts

/-- All accessors that have been read are built. -/
def TypeParts.Built (p : TypeParts) : Prop :=
  ∀ as, p.accessors = some as → ∀ a ∈ as, a.Built

/-- The default value that has been read is built. -/
def AccessorParts.Built (p : AccessorParts) : Prop :=
  ∀ v, p.default = some (some v) → (Part.value v).Throughout Part.Built

/-- The type that has been read is built. -/
def ConstantParts.Built (p : ConstantParts) : Prop :=
  ∀ t, p.type = some t → (Part.type t).Throughout Part.Built

/-- The type and the values that have been read are built. -/
structure StatedParts.Built (p : StatedParts) : Prop where
  type : ∀ t, p.type = some t → (Part.type t).Throughout Part.Built
  values : ∀ es, p.values = some es → ∀ e ∈ es, (Part.value e.2).Throughout Part.Built

theorem TypeParts.Built.build {p : TypeParts} (h : p.Built) {t : TypeDecl}
    (build : p.build = .ok t) : (Part.type t).Throughout Part.Built := by
  obtain ⟨name, -, build⟩ := Parsed.bind_eq_ok.1 build
  obtain ⟨sort, -, build⟩ := Parsed.bind_eq_ok.1 build
  cases build
  have drafts : ∀ a ∈ p.accessors.getD [], a.Built := by
    cases has : p.accessors with
    | none => simp
    | some as => exact h as has
  refine Part.throughout_type_iff.2 ⟨?_, ?_⟩
  · intro a ha
    obtain ⟨d, -, rfl⟩ := List.mem_map.1 ha
    rfl
  · intro a ha v hv
    obtain ⟨d, hd, rfl⟩ := List.mem_map.1 ha
    exact drafts d hd v hv

theorem AccessorParts.Built.build {p : AccessorParts} (h : p.Built) {a : AccessorDraft}
    (build : p.build = .ok a) : a.Built := by
  obtain ⟨name, -, build⟩ := Parsed.bind_eq_ok.1 build
  obtain ⟨kind, -, build⟩ := Parsed.bind_eq_ok.1 build
  cases build
  intro v hv
  exact h v (Option.join_eq_some_iff.1 hv)

theorem ConstantParts.Built.build {p : ConstantParts} (h : p.Built) {c : Constant}
    (build : p.build = .ok c) : (Part.value (.constant c)).Throughout Part.Built := by
  obtain ⟨t, ht, build⟩ := Parsed.bind_eq_ok.1 build
  obtain ⟨name, -, build⟩ := Parsed.bind_eq_ok.1 build
  cases build
  exact Part.throughout_constant_iff.2 ⟨trivial, h t (Parsed.ofOption_eq_ok.1 ht)⟩

/-- What a draft builds from built values of a built type is built throughout. -/
theorem Part.built_of {t : TypeDecl} {values : List (String × Value)} {s : Stated}
    (type : (Part.type t).Throughout Built)
    (entries : ∀ e ∈ values, (Part.value e.2).Throughout Built)
    (h : Stated.of t values = .ok s) : (Part.stated s).Throughout Built := by
  obtain rfl := Stated.type_of h
  refine throughout_stated_iff.2 ⟨⟨values, h⟩, type, fun e he ↦ ?_⟩
  rcases Stated.mem_of h he with given | ⟨a, ha, -, default⟩
  · exact entries e given
  · exact (throughout_type_iff.1 type).2 a ha e.2 default

theorem StatedParts.Built.build {p : StatedParts} (h : p.Built) {s : Stated}
    (build : p.build = .ok s) : (Part.stated s).Throughout Part.Built := by
  obtain ⟨t, ht, build⟩ := Parsed.bind_eq_ok.1 build
  obtain ⟨values, hvalues, build⟩ := Parsed.bind_eq_ok.1 build
  have built : Stated.of t (Entries.ofList values) = .ok s := by
    cases hof : Stated.of t (Entries.ofList values) with
    | error e =>
      rw [hof] at build
      cases build
    | ok s' =>
      rw [hof] at build
      cases build
      rfl
  exact Part.built_of (h.type t (Parsed.ofOption_eq_ok.1 ht))
    (fun e he ↦ h.values values (Parsed.ofOption_eq_ok.1 hvalues) e (Entries.mem_of_mem_ofList he))
    built

variable {ms : List (String × Json)}

theorem TypeParts.Built.members (sound : ∀ m ∈ ms, m.2.Sound) {p q : TypeParts} (h : p.Built)
    (read : typeMembers p ms = .ok q) : q.Built := by
  induction ms generalizing p with
  | nil =>
    cases read
    exact h
  | cons m ms ih =>
    obtain ⟨first, rest⟩ := List.forall_mem_cons.1 sound
    unfold typeMembers at read
    split at read
    · obtain ⟨name, -, read⟩ := Parsed.bind_eq_ok.1 read
      refine ih rest ?_ read
      exact h
    · obtain ⟨sort, -, read⟩ := Parsed.bind_eq_ok.1 read
      refine ih rest ?_ read
      exact h
    · obtain ⟨accessors, haccessors, read⟩ := Parsed.bind_eq_ok.1 read
      obtain ⟨as, has, rfl⟩ := Parsed.once_eq_ok haccessors
      refine ih rest (fun as' same ↦ ?_) read
      cases same
      exact first.drafts as has
    · obtain ⟨constants, -, read⟩ := Parsed.bind_eq_ok.1 read
      refine ih rest ?_ read
      exact h
    · exact ih rest h read

theorem AccessorParts.Built.members (sound : ∀ m ∈ ms, m.2.Sound) {p q : AccessorParts}
    (h : p.Built) (read : accessorMembers p ms = .ok q) : q.Built := by
  induction ms generalizing p with
  | nil =>
    cases read
    exact h
  | cons m ms ih =>
    obtain ⟨first, rest⟩ := List.forall_mem_cons.1 sound
    unfold accessorMembers at read
    split at read
    · obtain ⟨name, -, read⟩ := Parsed.bind_eq_ok.1 read
      refine ih rest ?_ read
      exact h
    · obtain ⟨kind, -, read⟩ := Parsed.bind_eq_ok.1 read
      refine ih rest ?_ read
      exact h
    · obtain ⟨default, hdefault, read⟩ := Parsed.bind_eq_ok.1 read
      obtain ⟨d, hd, rfl⟩ := Parsed.once_eq_ok hdefault
      refine ih rest (fun v same ↦ ?_) read
      cases same
      rcases Parsed.unlessNull_eq_ok hd with none | ⟨w, hw, same⟩
      · cases none
      · cases same
        exact first.value v hw
    · exact ih rest h read

theorem ConstantParts.Built.members (sound : ∀ m ∈ ms, m.2.Sound) {p q : ConstantParts}
    (h : p.Built) (read : constantMembers p ms = .ok q) : q.Built := by
  induction ms generalizing p with
  | nil =>
    cases read
    exact h
  | cons m ms ih =>
    obtain ⟨first, rest⟩ := List.forall_mem_cons.1 sound
    unfold constantMembers at read
    split at read
    · obtain ⟨type, htype, read⟩ := Parsed.bind_eq_ok.1 read
      obtain ⟨t, ht, rfl⟩ := Parsed.once_eq_ok htype
      refine ih rest (fun t' same ↦ ?_) read
      cases same
      exact first.type t ht
    · obtain ⟨name, -, read⟩ := Parsed.bind_eq_ok.1 read
      refine ih rest ?_ read
      exact h
    · exact ih rest h read

theorem StatedParts.Built.members (sound : ∀ m ∈ ms, m.2.Sound) {p q : StatedParts}
    (h : p.Built) (read : statedMembers p ms = .ok q) : q.Built := by
  induction ms generalizing p with
  | nil =>
    cases read
    exact h
  | cons m ms ih =>
    obtain ⟨first, rest⟩ := List.forall_mem_cons.1 sound
    unfold statedMembers at read
    split at read
    · obtain ⟨type, htype, read⟩ := Parsed.bind_eq_ok.1 read
      obtain ⟨t, ht, rfl⟩ := Parsed.once_eq_ok htype
      refine ih rest ?_ read
      refine ⟨fun t' same ↦ ?_, h.values⟩
      cases same
      exact first.type t ht
    · obtain ⟨values, hvalues, read⟩ := Parsed.bind_eq_ok.1 read
      obtain ⟨es, hes, rfl⟩ := Parsed.once_eq_ok hvalues
      refine ih rest ?_ read
      refine ⟨h.type, fun es' same ↦ ?_⟩
      cases same
      exact first.entries es hes
    · exact ih rest h read

end Parts

/-! ### The recursion -/

section Recursion

variable {vs : List Json}

private theorem built_of_valuesOfJson (sound : ∀ v ∈ vs, v.Sound) {us : List Value}
    (read : valuesOfJson vs = .ok us) : ∀ u ∈ us, (Part.value u).Throughout Part.Built := by
  induction vs generalizing us with
  | nil =>
    cases read
    simp
  | cons v vs ih =>
    obtain ⟨first, rest⟩ := List.forall_mem_cons.1 sound
    obtain ⟨u, hu, read⟩ := Parsed.bind_eq_ok.1 read
    obtain ⟨us, hus, read⟩ := Parsed.bind_eq_ok.1 read
    cases read
    exact List.forall_mem_cons.2 ⟨first.value u hu, ih rest hus⟩

private theorem built_of_accessorListOfJson (sound : ∀ v ∈ vs, v.Sound) {as : List AccessorDraft}
    (read : accessorListOfJson vs = .ok as) : ∀ a ∈ as, a.Built := by
  induction vs generalizing as with
  | nil =>
    cases read
    simp
  | cons v vs ih =>
    obtain ⟨first, rest⟩ := List.forall_mem_cons.1 sound
    obtain ⟨a, ha, read⟩ := Parsed.bind_eq_ok.1 read
    obtain ⟨as, has, read⟩ := Parsed.bind_eq_ok.1 read
    cases read
    exact List.forall_mem_cons.2 ⟨first.draft a ha, ih rest has⟩

private theorem built_of_entryListOfJson {ms : List (String × Json)}
    (sound : ∀ m ∈ ms, m.2.Sound) {es : List (String × Value)}
    (read : entryListOfJson ms = .ok es) :
    ∀ e ∈ es, (Part.value e.2).Throughout Part.Built := by
  induction ms generalizing es with
  | nil =>
    cases read
    simp
  | cons m ms ih =>
    obtain ⟨first, rest⟩ := List.forall_mem_cons.1 sound
    obtain ⟨v, hv, read⟩ := Parsed.bind_eq_ok.1 read
    obtain ⟨es, hes, read⟩ := Parsed.bind_eq_ok.1 read
    cases read
    exact List.forall_mem_cons.2 ⟨first.value v hv, ih rest hes⟩

/-- A scalar is built. -/
private theorem built_of_ofOption_map {α : Type} {o : Option α} {f : α → Value}
    (scalar : ∀ a, (f a).IsScalar) {v : Value} (read : Parsed.ofOption (o.map f) = .ok v) :
    (Part.value v).Throughout Part.Built := by
  obtain ⟨a, -, rfl⟩ := Option.map_eq_some_iff.1 (Parsed.ofOption_eq_ok.1 read)
  have built : (Part.value (f a)).Built := by
    have := scalar a
    cases hfa : f a <;> first | trivial | (rw [hfa] at this; exact this.elim)
  exact (Part.throughout_scalar_iff (scalar a)).2 built

private theorem built_of_tagged {c : Category} {j : Json} (sound : j.Sound) {v : Value}
    (read : Value.ofJson (.tagged c j) = .ok v) : (Part.value v).Throughout Part.Built := by
  rw [Value.ofJson_tagged] at read
  cases c with
  | type =>
    obtain ⟨t, ht, read⟩ := Parsed.bind_eq_ok.1 read
    cases read
    exact Part.throughout_typed_iff.2 ⟨trivial, sound.type t ht⟩
  | constant =>
    obtain ⟨c, hc, read⟩ := Parsed.bind_eq_ok.1 read
    cases read
    exact sound.constant c hc
  | nested =>
    obtain ⟨s, hs, read⟩ := Parsed.bind_eq_ok.1 read
    cases read
    exact Part.throughout_nested_iff.2 ⟨trivial, sound.stated s hs⟩
  | array =>
    cases j with
    | array vs =>
      obtain ⟨us, hus, read⟩ := Parsed.bind_eq_ok.1 read
      cases read
      exact Part.throughout_array_iff.2 ⟨trivial, sound.values vs us rfl hus⟩
    | _ => cases read
  | _ =>
    refine built_of_ofOption_map ?_ read
    exact fun _ ↦ trivial

/-! From an array, things are read by the order of their parts, of which the last ones may be
missing. -/

private theorem built_type_of_array (sound : ∀ v ∈ vs, v.Sound) {t : TypeDecl}
    (read : TypeDecl.ofJson (.array vs) = .ok t) : (Part.type t).Throughout Part.Built := by
  rcases vs with - | ⟨n, - | ⟨k, - | ⟨as, - | ⟨cs, - | ⟨x, xs⟩⟩⟩⟩⟩
  · cases read
  · cases read
  · obtain ⟨name, -, read⟩ := Parsed.bind_eq_ok.1 read
    obtain ⟨sort, -, build⟩ := Parsed.bind_eq_ok.1 read
    refine TypeParts.Built.build ?_ build
    intro _ none
    cases none
  · obtain ⟨name, -, read⟩ := Parsed.bind_eq_ok.1 read
    obtain ⟨sort, -, read⟩ := Parsed.bind_eq_ok.1 read
    obtain ⟨drafts, hdrafts, build⟩ := Parsed.bind_eq_ok.1 read
    refine TypeParts.Built.build ?_ build
    rintro _ ⟨⟩
    exact (sound as (by simp)).drafts drafts hdrafts
  · obtain ⟨name, -, read⟩ := Parsed.bind_eq_ok.1 read
    obtain ⟨sort, -, read⟩ := Parsed.bind_eq_ok.1 read
    obtain ⟨drafts, hdrafts, read⟩ := Parsed.bind_eq_ok.1 read
    obtain ⟨constants, -, build⟩ := Parsed.bind_eq_ok.1 read
    refine TypeParts.Built.build ?_ build
    rintro _ ⟨⟩
    exact (sound as (by simp)).drafts drafts hdrafts
  · cases read

private theorem built_draft_of_array (sound : ∀ v ∈ vs, v.Sound) {a : AccessorDraft}
    (read : AccessorDraft.ofJson (.array vs) = .ok a) : a.Built := by
  rcases vs with - | ⟨n, - | ⟨k, - | ⟨d, - | ⟨x, xs⟩⟩⟩⟩
  · cases read
  · cases read
  · obtain ⟨name, -, read⟩ := Parsed.bind_eq_ok.1 read
    obtain ⟨kind, -, build⟩ := Parsed.bind_eq_ok.1 read
    refine AccessorParts.Built.build ?_ build
    intro _ none
    cases none
  · obtain ⟨name, -, read⟩ := Parsed.bind_eq_ok.1 read
    obtain ⟨kind, -, read⟩ := Parsed.bind_eq_ok.1 read
    obtain ⟨default, hdefault, build⟩ := Parsed.bind_eq_ok.1 read
    refine AccessorParts.Built.build ?_ build
    rintro v ⟨⟩
    rcases Parsed.unlessNull_eq_ok hdefault with none | ⟨w, hw, same⟩
    · cases none
    · cases same
      exact (sound d (by simp)).value _ hw
  · cases read

private theorem built_constant_of_array (sound : ∀ v ∈ vs, v.Sound) {c : Constant}
    (read : Constant.ofJson (.array vs) = .ok c) :
    (Part.value (.constant c)).Throughout Part.Built := by
  rcases vs with - | ⟨t, - | ⟨n, - | ⟨x, xs⟩⟩⟩
  · cases read
  · cases read
  · obtain ⟨type, htype, read⟩ := Parsed.bind_eq_ok.1 read
    obtain ⟨name, -, build⟩ := Parsed.bind_eq_ok.1 read
    refine ConstantParts.Built.build ?_ build
    rintro _ ⟨⟩
    exact (sound t (by simp)).type type htype
  · cases read

private theorem built_stated_of_array (sound : ∀ v ∈ vs, v.Sound) {s : Stated}
    (read : Stated.ofJson (.array vs) = .ok s) : (Part.stated s).Throughout Part.Built := by
  rcases vs with - | ⟨t, - | ⟨es, - | ⟨x, xs⟩⟩⟩
  · cases read
  · cases read
  · obtain ⟨type, htype, read⟩ := Parsed.bind_eq_ok.1 read
    obtain ⟨values, hvalues, build⟩ := Parsed.bind_eq_ok.1 read
    refine StatedParts.Built.build ⟨?_, ?_⟩ build
    · rintro _ ⟨⟩
      exact (sound t (by simp)).type type htype
    · rintro _ ⟨⟩
      exact (sound es (by simp)).entries values hvalues
  · cases read

private theorem sound_array (sound : ∀ v ∈ vs, v.Sound) : (Json.array vs).Sound where
  value v read := by cases read
  values us ws same read := by
    cases same
    exact built_of_valuesOfJson sound read
  type _ read := built_type_of_array sound read
  draft _ read := built_draft_of_array sound read
  drafts _ read := built_of_accessorListOfJson sound read
  constant _ read := built_constant_of_array sound read
  stated _ read := built_stated_of_array sound read
  entries es read := by cases read

private theorem sound_object {ms : List (String × Json)} (sound : ∀ m ∈ ms, m.2.Sound) :
    (Json.object ms).Sound where
  value v read := by
    rcases ms with - | ⟨⟨w, j⟩, - | ⟨m, ms⟩⟩
    · cases read
    · cases hc : Category.ofWord? w with
      | none =>
        unfold Value.ofJson at read
        simp [hc] at read
      | some c =>
        obtain rfl := Category.word_of_ofWord? hc
        exact built_of_tagged (sound _ List.mem_cons_self) read
    · cases read
  values us ws same _ := by cases same
  type t read := by
    obtain ⟨parts, hparts, build⟩ := Parsed.bind_eq_ok.1 read
    refine TypeParts.Built.build (TypeParts.Built.members sound ?_ hparts) build
    intro as none
    cases none
  draft a read := by
    obtain ⟨parts, hparts, build⟩ := Parsed.bind_eq_ok.1 read
    refine AccessorParts.Built.build (AccessorParts.Built.members sound ?_ hparts) build
    intro v none
    cases none
  drafts as read := by cases read
  constant c read := by
    obtain ⟨parts, hparts, build⟩ := Parsed.bind_eq_ok.1 read
    refine ConstantParts.Built.build (ConstantParts.Built.members sound ?_ hparts) build
    intro t none
    cases none
  stated s read := by
    obtain ⟨parts, hparts, build⟩ := Parsed.bind_eq_ok.1 read
    refine StatedParts.Built.build (StatedParts.Built.members sound ?_ hparts) build
    refine ⟨fun t none ↦ ?_, fun es none ↦ ?_⟩ <;> cases none
  entries es read := built_of_entryListOfJson sound read

/-- **Whatever is read from a tree is built.** -/
theorem Json.sound (j : Json) : j.Sound := by
  induction j using Json.induction with
  | array vs ih => exact sound_array ih
  | object ms ih => exact sound_object ih
  | other j noArray noObject =>
    constructor
    case values =>
      intro vs us same
      exact absurd same (noArray vs)
    all_goals
      intro x read
      cases j with
      | array vs => exact absurd rfl (noArray vs)
      | object ms => exact absurd rfl (noObject ms)
      | _ => cases read

end Recursion

/-! ### Texts -/

/-- The part is what was read from a text. -/
inductive Part.IsRead : Part → Prop
  | value {text : String} {v : Value} (h : Value.read text = .ok v) : IsRead (.value v)
  | type {text : String} {t : TypeDecl} (h : TypeDecl.read text = .ok t) : IsRead (.type t)
  | constant {text : String} {c : Constant} (h : Constant.read text = .ok c) :
    IsRead (.value (.constant c))
  | stated {text : String} {s : Stated} (h : Stated.read text = .ok s) : IsRead (.stated s)

/-- **Whatever is read from a text is built.** -/
theorem Part.IsRead.built {p : Part} (h : p.IsRead) : p.Throughout Built := by
  cases h with
  | value h =>
    obtain ⟨j, -, h⟩ := Parsed.bind_eq_ok.1 h
    exact j.sound.value _ h
  | type h =>
    obtain ⟨j, -, h⟩ := Parsed.bind_eq_ok.1 h
    exact j.sound.type _ h
  | constant h =>
    obtain ⟨j, -, h⟩ := Parsed.bind_eq_ok.1 h
    exact j.sound.constant _ h
  | stated h =>
    obtain ⟨j, -, h⟩ := Parsed.bind_eq_ok.1 h
    exact j.sound.stated _ h

end Annotations
