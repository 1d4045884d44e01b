import Annotations.Proofs.Filled
import Annotations.Proofs.HashSum

/-!
# A detached annotation stands for the original

Detaching reads a lazy annotation once, all through. What it gives is another annotation, in which
all that was live is stated. Whoever asks the two can tell no difference: one **mirrors** the other
within a number of levels (`Registry.Mirrors`) when their types are the same and both answer every
known handle of a declared accessor with values that are alike in annotations that mirror each other
within one level less.

* A detached annotation mirrors the original (`mirrors_of_detachWithin`).
* Comparing, on either side, hashing and showing end the same for both, under every limit, also
  where they end in an error (`Mirrors.equalWithin_left`, `Mirrors.equalWithin_right`,
  `Mirrors.hashWithin_eq`, `Mirrors.renderWithin_eq`). Each of these goes by induction on the levels
  that it may enter itself; the levels that were detached only run ahead of them.
* Where no more levels were detached than may be entered, the two have a hash and are equal
  (`Mirrors.exists_hashWithin`, `Mirrors.equalWithin_self`).
-/

namespace Annotations

namespace Registry

/-- The two annotations have the same type and answer alike, within a number of levels. -/
def Mirrors (w : Registry) : (room : Nat) → Description → Description → Prop
  | 0, _, _ => False
  | room + 1, d, e =>
    d.type = e.type ∧ w.AdmitsType d.type ∧
      ∀ h, w.Knows h → d.type.declares h = true →
        ∃ x y, (d.get h).result = .ok x ∧ (e.get h).result = .ok y ∧
          Value.Alike (Mirrors w room) x y

variable {w : Registry} {limit room m : Nat} {d e : Description}

namespace Mirrors

theorem symm (h : w.Mirrors room d e) : w.Mirrors room e d := by
  induction room generalizing d e with
  | zero => exact h
  | succ room ih =>
    obtain ⟨type, admits, answers⟩ := h
    refine ⟨type.symm, type ▸ admits, fun g known declared ↦ ?_⟩
    obtain ⟨x, y, hx, hy, alike⟩ := answers g known (type ▸ declared)
    exact ⟨y, x, hy, hx, alike.symm.mono fun _ _ ↦ ih⟩

/-- The accessors of the type are among what both answer alike. -/
theorem own (h : w.Mirrors (room + 1) d e) {a : Accessor} (ha : a ∈ d.type.accessors) :
    ∃ x y, (d.get a.handle).result = .ok x ∧ (e.get a.handle).result = .ok y ∧
      Value.Alike (w.Mirrors room) x y :=
  h.2.2 a.handle (h.2.1.knows a ha) (TypeDecl.declares_of_mem h.2.1.owned ha)

/-! ### Comparing -/

private theorem agreeOn_left {f : Value → Value → Eval Bool} (h : w.Mirrors (room + 1) d e)
    {x : Description} {as : List Accessor} (sub : as ⊆ d.type.accessors)
    (inside : ∀ u v y, Value.Alike (w.Mirrors room) u v → (f u y).result = (f v y).result) :
    (Description.agreeOn f d x as).result = (Description.agreeOn f e x as).result := by
  induction as with
  | nil => rfl
  | cons a as ih =>
    obtain ⟨ha, sub⟩ := List.cons_subset.1 sub
    obtain ⟨u, v, hu, hv, alike⟩ := h.own ha
    rw [Description.agreeOn, Description.agreeOn, Eval.result_bind_of_eq_ok hu,
      Eval.result_bind_of_eq_ok hv]
    refine Eval.result_bind_congr rfl fun y _ ↦ ?_
    refine Eval.result_bind_congr (inside u v y alike) fun b _ ↦ ?_
    cases b with
    | false => rfl
    | true => exact ih sub

/-- **On the left side of a comparison one is as good as the other**, whatever stands on the
right. -/
theorem equalWithin_left (h : w.Mirrors room d e) (x : Description) :
    (Description.equalWithin limit m d x).result =
      (Description.equalWithin limit m e x).result := by
  -- Induction on the levels that the comparison may enter. How far the two are known is counted
  -- apart: the comparison ends in its own limit whether or not they are known beyond it.
  induction m generalizing room d e x with
  | zero => rfl
  | succ m ih =>
    cases room with
    | zero => exact h.elim
    | succ room =>
      rw [Description.equalWithin, Description.equalWithin, h.1]
      split
      · rw [← h.1]
        refine agreeOn_left h (List.Subset.refl _) fun u v y alike ↦ ?_
        have same : Value.Alike (· = ·) y y := Value.Alike.refl fun _ _ ↦ rfl
        refine Value.equalBy_congr ?_ alike same
        rintro p q r _ mirrors rfl
        exact ih mirrors r
      · rfl

private theorem agreeOn_right {f : Value → Value → Eval Bool} (h : w.Mirrors (room + 1) d e)
    {x : Description} {as : List Accessor} (known : ∀ a ∈ as, w.Knows a.handle)
    (declared : ∀ a ∈ as, d.type.declares a.handle = true)
    (inside : ∀ u v y, x.Reports y → Value.Alike (w.Mirrors room) u v →
      (f y u).result = (f y v).result) (own : as ⊆ x.type.accessors) :
    (Description.agreeOn f x d as).result = (Description.agreeOn f x e as).result := by
  induction as with
  | nil => rfl
  | cons a as ih =>
    obtain ⟨ha, own⟩ := List.cons_subset.1 own
    obtain ⟨known_a, known⟩ := List.forall_mem_cons.1 known
    obtain ⟨declared_a, declared⟩ := List.forall_mem_cons.1 declared
    obtain ⟨u, v, hu, hv, alike⟩ := h.2.2 a.handle known_a declared_a
    rw [Description.agreeOn, Description.agreeOn]
    refine Eval.result_bind_congr rfl fun y hy ↦ ?_
    rw [Eval.result_bind_of_eq_ok hu, Eval.result_bind_of_eq_ok hv]
    refine Eval.result_bind_congr (inside u v y ⟨a, ha, hy⟩ alike) fun b _ ↦ ?_
    cases b with
    | false => rfl
    | true => exact ih known declared own

/-- **On the right side of a comparison one is as good as the other**: the left side asks by handles
that are known. -/
theorem equalWithin_right (h : w.Mirrors room d e) {x : Description}
    (hx : x.Everywhere w.Admits) :
    (Description.equalWithin limit m x d).result =
      (Description.equalWithin limit m x e).result := by
  induction m generalizing room d e x with
  | zero => rfl
  | succ m ih =>
    cases room with
    | zero => exact h.elim
    | succ room =>
      rw [Description.equalWithin, Description.equalWithin, h.1]
      split
      · rename_i comparable
        rw [← h.1] at comparable
        refine agreeOn_right h (fun a ha ↦ hx.self.type.knows a ha)
          (fun a ha ↦ TypeDecl.declares_of_comparable comparable ha) ?_ (List.Subset.refl _)
        intro u v y reports alike
        -- The left values are the same ones, and what is in them asks by known handles again.
        have same : Value.Alike (fun p q ↦ p = q ∧ p.Everywhere w.Admits) y y :=
          Value.Alike.refl fun p hp ↦ ⟨rfl, hx.value reports p hp⟩
        refine Value.equalBy_congr ?_ same alike
        rintro p _ q r ⟨rfl, hp⟩ mirrors
        exact ih mirrors hp
      · rfl

/-- The two are equal when no more levels of them are known than may be entered. -/
theorem equalWithin_self (h : w.Mirrors room d e) (enough : room ≤ m) :
    (Description.equalWithin limit m d e).result = .ok true := by
  induction m generalizing room d e with
  | zero =>
    obtain rfl : room = 0 := by omega
    exact h.elim
  | succ m ih =>
    cases room with
    | zero => exact h.elim
    | succ room =>
      have comparable : d.type.comparable e.type = true := by
        rw [← h.1]
        exact TypeDecl.comparable_self h.2.1.owned
      refine Description.equalWithin_succ_iff.2 ⟨comparable, fun a ha ↦ ?_⟩
      obtain ⟨x, y, hx, hy, alike⟩ := h.own ha
      refine ⟨x, y, hx, hy, Value.equalBy_eq_true_iff.2 (alike.mono fun p q mirrors ↦ ?_)⟩
      exact ih mirrors (by omega)

/-! ### Hashing -/

private theorem hashOn_eq {f : Value → Eval UInt64} (h : w.Mirrors (room + 1) d e)
    {as : List Accessor} (sub : as ⊆ d.type.accessors)
    (inside : ∀ u v, Value.Alike (w.Mirrors room) u v → (f u).result = (f v).result)
    (start : UInt64) :
    (Description.hashOn f d start as).result = (Description.hashOn f e start as).result := by
  induction as generalizing start with
  | nil => rfl
  | cons a as ih =>
    obtain ⟨ha, sub⟩ := List.cons_subset.1 sub
    obtain ⟨u, v, hu, hv, alike⟩ := h.own ha
    rw [Description.hashOn, Description.hashOn, Eval.result_bind_of_eq_ok hu,
      Eval.result_bind_of_eq_ok hv]
    exact Eval.result_bind_congr (inside u v alike) fun n _ ↦ ih sub _

/-- **The two have the same hash**, or the same error in place of one. -/
theorem hashWithin_eq (h : w.Mirrors room d e) :
    (Description.hashWithin limit m d).result = (Description.hashWithin limit m e).result := by
  induction m generalizing room d e with
  | zero => rfl
  | succ m ih =>
    cases room with
    | zero => exact h.elim
    | succ room =>
      rw [Description.hashWithin, Description.hashWithin, ← h.1]
      exact hashOn_eq h (List.Subset.refl _)
        (fun u v alike ↦ Value.hashBy_congr (fun p q mirrors ↦ ih mirrors) alike) 0

private theorem exists_hashOn {f : Value → Eval UInt64} {as : List Accessor}
    (hashed : ∀ a ∈ as, ∃ v, (d.get a.handle).result = .ok v ∧ ∃ n, (f v).result = .ok n)
    (start : UInt64) : ∃ n, (Description.hashOn f d start as).result = .ok n := by
  induction as generalizing start with
  | nil => exact ⟨start, rfl⟩
  | cons a as ih =>
    obtain ⟨⟨v, hv, n, hn⟩, rest⟩ := List.forall_mem_cons.1 hashed
    rw [Description.hashOn, Eval.result_bind_of_eq_ok hv, Eval.result_bind_of_eq_ok hn]
    exact ih rest _

/-- There is a hash when no more levels are known than may be entered. -/
theorem exists_hashWithin (h : w.Mirrors room d e) (enough : room ≤ m) :
    ∃ n, (Description.hashWithin limit m d).result = .ok n := by
  induction m generalizing room d e with
  | zero =>
    obtain rfl : room = 0 := by omega
    exact h.elim
  | succ m ih =>
    cases room with
    | zero => exact h.elim
    | succ room =>
      refine exists_hashOn (fun a ha ↦ ?_) 0
      obtain ⟨x, y, hx, -, alike⟩ := h.own ha
      exact ⟨x, hx, Value.exists_hashBy (fun p q mirrors ↦ ih mirrors (by omega)) alike⟩

/-! ### Showing -/

private theorem value_renderSlot {f : Value → Traced String} {a : Accessor} {v : Value}
    (hv : (d.get a.handle).result = .ok v) :
    (Description.renderSlot f d a).value = a.name ++ "=" ++ (f v).value := by
  simp [Description.renderSlot, hv]

/-- **The two are shown the same.** -/
theorem renderWithin_eq (h : w.Mirrors room d e) :
    (Description.renderWithin m d).value = (Description.renderWithin m e).value := by
  induction m generalizing room d e with
  | zero =>
    cases room with
    | zero => exact h.elim
    | succ room => simp [Description.renderWithin, Description.typeName, h.1]
  | succ m ih =>
    cases room with
    | zero => exact h.elim
    | succ room =>
      have slots : ∀ a ∈ d.type.accessors,
          (Description.renderSlot (Value.renderBy (Description.renderWithin m)) d a).value =
            (Description.renderSlot (Value.renderBy (Description.renderWithin m)) e a).value := by
        intro a ha
        obtain ⟨x, y, hx, hy, alike⟩ := h.own ha
        rw [value_renderSlot hx, value_renderSlot hy,
          Value.renderBy_congr (fun p q mirrors ↦ ih mirrors) alike]
      simp only [Description.renderWithin, Traced.value_bind, Traced.value_mapM, Traced.value_pure,
        Description.typeName, ← h.1]
      rw [List.map_congr_left slots]

end Mirrors

/-! ### Detaching -/

/-- **A detached annotation mirrors the original.** -/
theorem mirrors_of_detachWithin (hd : d.Everywhere w.Admits) {s : Stated}
    (detached : (Description.detachWithin limit room d).result = .ok s) :
    w.Mirrors room d (.stated s) := by
  induction room generalizing d s with
  | zero => cases detached
  | succ room ih =>
    obtain ⟨type, values⟩ := Description.of_detachWithin detached
    refine ⟨type.symm, hd.self.type, fun h known declared ↦ ?_⟩
    obtain ⟨howner, hname⟩ := TypeDecl.declares_iff.1 declared
    obtain ⟨y, hy, a, ha, name, x, hx, hxy⟩ := values h.name hname
    -- The value was read by the accessor's own handle; `h` has the same owner and name.
    have same : h.same a.handle = true :=
      Handle.same_iff.2 ⟨howner.trans (hd.self.type.owned a ha).symm, name.symm⟩
    have read : d.get h = d.get a.handle :=
      Description.get_eq_of_same hd.self.proper.plain (not_foreign known hd.self)
        (Description.not_foreign_of_mem ha) same
    have held : s.get h = .ok y := Stated.get_eq_ok_iff.2 ⟨type ▸ declared, hy⟩
    refine ⟨x, y, read ▸ hx, by rw [Description.get_stated, Eval.result_ofExcept, held], ?_⟩
    refine (Value.alike_of_detachBy hxy).holding.mono ?_
    rintro p _ ⟨⟨t, ht, rfl⟩, hp, -⟩
    exact ih (hd.value ⟨a, ha, hx⟩ p hp) ht

/-- Asked by the handle, both annotations give values, and these are equal in either order; or both
report, in the same way, that the accessor is not known. -/
def AnswerAlike (limit : Nat) (d e : Description) (h : Handle) : Prop :=
  (∃ x y, (d.get h).result = .ok x ∧ (e.get h).result = .ok y ∧
    (x.equal limit y).result = .ok true ∧ (y.equal limit x).result = .ok true) ∨
  ((d.get h).result = .error (.accessorNotFound d.typeName h.text) ∧
    (e.get h).result = .error (.accessorNotFound d.typeName h.text))

/-- The second annotation can be used in place of the first one: `limit` is what it takes for the
first one to have a hash, and the others are those that the registry admits. -/
structure StandsFor (w : Registry) (limit : Nat) (d e : Description) : Prop where
  /-- On the left side of a comparison the outcome is the same, under every limit. -/
  equal_left : ∀ (m : Nat) (x : Description), (d.equal m x).result = (e.equal m x).result
  /-- On the right side of a comparison the outcome is the same, under every limit. -/
  equal_right : ∀ (m : Nat) (x : Description), x.Everywhere w.Admits →
    (x.equal m d).result = (x.equal m e).result
  /-- Hashing ends the same, under every limit. -/
  hash_eq : ∀ m, (d.hash m).result = (e.hash m).result
  /-- There is a hash, unless fewer levels may be entered. -/
  hashed : ∀ m, limit ≤ m → ∃ n, (d.hash m).result = .ok n
  /-- Both are shown the same, under every limit. -/
  render_eq : ∀ m, (d.render m).value = (e.render m).value
  /-- A known handle is answered alike, whether its accessor is declared or not. -/
  get : ∀ h, w.Knows h → AnswerAlike limit d e h

/-- Values that are alike in annotations that mirror each other are equal. -/
theorem equal_of_alike_mirrors {x y : Value} (alike : Value.Alike (w.Mirrors room) x y)
    (enough : room ≤ limit) : (x.equal limit y).result = .ok true :=
  Value.equalBy_eq_true_iff.2 (alike.mono fun _ _ mirrors ↦ mirrors.equalWithin_self enough)

/-- Annotations that mirror each other answer every known handle alike. -/
theorem Mirrors.answerAlike (h : w.Mirrors limit d e) (hd : w.Admits d) (he : w.Admits e)
    {g : Handle} (known : w.Knows g) : AnswerAlike limit d e g := by
  cases limit with
  | zero => exact h.elim
  | succ room =>
    have type : d.type = e.type := h.1
    by_cases declared : d.type.declares g = true
    · obtain ⟨x, y, hx, hy, alike⟩ := h.2.2 g known declared
      have back := alike.symm.mono fun _ _ ↦ Mirrors.symm
      exact .inl ⟨x, y, hx, hy, equal_of_alike_mirrors alike (by omega),
        equal_of_alike_mirrors back (by omega)⟩
    · have undeclared : d.type.declares g = false := by simpa using declared
      have name : e.typeName = d.typeName := congrArg TypeDecl.name type.symm
      have missing := Description.get_of_not_declares hd.proper.plain (not_foreign known hd)
        undeclared
      have missing' := Description.get_of_not_declares he.proper.plain (not_foreign known he)
        (type ▸ undeclared)
      exact .inr ⟨missing, name ▸ missing'⟩

/-- **A detached annotation stands for the original.** Let everything inside an annotation be
admitted by a registry, and let it be detached under a limit. Then the stated annotation that this
gives is compared, hashed, shown and asked with the same outcome as the original. -/
theorem detached_standsFor (hd : d.Everywhere w.Admits) {s : Stated}
    (detached : (d.detach limit).result = .ok s) : w.StandsFor limit d (.stated s) := by
  have mirrors : w.Mirrors limit d (.stated s) := mirrors_of_detachWithin hd detached
  have admits : w.Admits (.stated s) := by
    cases limit with
    | zero => exact mirrors.elim
    | succ room =>
      have type : d.type = s.type := mirrors.1
      show w.AdmitsType s.type
      exact type ▸ hd.self.type
  exact {
    equal_left := fun _ x ↦ mirrors.equalWithin_left x
    equal_right := fun _ _ hx ↦ mirrors.equalWithin_right hx
    hash_eq := fun _ ↦ mirrors.hashWithin_eq
    hashed := fun _ enough ↦ mirrors.exists_hashWithin enough
    render_eq := fun _ ↦ mirrors.renderWithin_eq
    get := fun _ known ↦ mirrors.answerAlike hd.self admits known }

/-- A pair with its marker, detached. Both are of their live types. -/
def detachedPair : Stated where
  type := pairType.describe
  values := [("weight", .int 3),
    ("marker", .nested (.stated ⟨Marker.liveType.describe, [("value", .int 7)]⟩))]

theorem detached_standsFor_pair :
    livePair.Everywhere pairs.Admits ∧ (livePair.detach 64).result = .ok detachedPair ∧
      pairs.StandsFor 64 livePair (.stated detachedPair) :=
  have admits : livePair.Everywhere pairs.Admits := everywhere_livePair.mono fun _ h ↦ h.admits
  ⟨admits, rfl, detached_standsFor admits rfl⟩

end Registry

end Annotations
