import Annotations.Proofs.ByName

/-!
# Hashes of annotations that report the same

The hash of an annotation is a sum over the names of its accessors, and a sum does not depend on the
order (`foldl_digests_perm`). So two annotations that report the same within the levels that a hash
may enter have a hash, and it is the same (`hashWithin_of_sameWithin`). This makes no use of
handles: each annotation is hashed by its own ones.

Within a registry equal annotations report the same, so equality of annotations and of values goes
with equality of hashes.
-/

namespace Annotations

/-! ### Sums -/

/-- The sum over names of thirty-one times what each stands for does not depend on their order. -/
private theorem foldl_digests_perm {ns ms : List String} (perm : ns.Perm ms) (F : String → UInt64) :
    ns.foldl (fun h n ↦ h + F n * 31) 0 = ms.foldl (fun h n ↦ h + F n * 31) 0 := by
  apply perm.foldl_eq'
  intro n _ m _ h
  rw [UInt64.add_assoc, UInt64.add_comm (F n * 31), UInt64.add_assoc]

namespace Description

/-- Added up over accessors that have values with hashes, the hashes give a sum over names. -/
private theorem hashOn_eq_foldl {hashOf : Value → Eval UInt64} {d : Description}
    {F : String → UInt64} {as : List Accessor}
    (h : ∀ a ∈ as, ∃ v, (d.get a.handle).result = .ok v ∧ (hashOf v).result = .ok (F a.name))
    (start : UInt64) :
    (hashOn hashOf d start as).result =
      .ok ((as.map Accessor.name).foldl (fun h n ↦ h + F n * 31) start) := by
  induction as generalizing start with
  | nil => rfl
  | cons a as ih =>
    obtain ⟨⟨v, hv, hash⟩, rest⟩ := List.forall_mem_cons.1 h
    rw [hashOn, Eval.result_bind_of_eq_ok hv, Eval.result_bind_of_eq_ok hash, ih rest]
    rfl

/-- What the annotation reports under the name has the hash. -/
def HashesTo (limit room : Nat) (d : Description) (n : String) (hash : UInt64) : Prop :=
  ∃ v, (d.named n).result = .ok v ∧
    (Value.hashBy (hashWithin limit room) v).result = .ok hash

/-- The hash of an annotation is a sum over the names of its accessors. -/
private theorem hashWithin_eq_foldl {limit room : Nat} {d : Description} (hd : d.Proper)
    {F : String → UInt64} (h : ∀ n ∈ d.type.accessorNames, d.HashesTo limit room n (F n)) :
    (hashWithin limit (room + 1) d).result =
      .ok (d.type.accessorNames.foldl (fun h n ↦ h + F n * 31) 0) := by
  refine hashOn_eq_foldl (fun a ha ↦ ?_) 0
  rw [hd.get_own ha]
  exact h a.name (List.mem_map_of_mem ha)

/-- Annotations with the same accessors have the same hash if what they report under each name
does. -/
theorem exists_hashWithin_of_hashesTo {limit room : Nat} {d e : Description} (hd : d.Proper)
    (he : e.Proper) (perm : d.type.accessorNames.Perm e.type.accessorNames)
    (h : ∀ n ∈ d.type.accessorNames, ∃ m, d.HashesTo limit room n m ∧ e.HashesTo limit room n m) :
    ∃ n, (hashWithin limit (room + 1) d).result = .ok n ∧
      (hashWithin limit (room + 1) e).result = .ok n := by
  choose! F left right using h
  refine ⟨_, hashWithin_eq_foldl hd left, ?_⟩
  rw [foldl_digests_perm perm]
  exact hashWithin_eq_foldl he fun n hn ↦ right n (perm.mem_iff.2 hn)

end Description

/-- Alike values have a hash, and the same one, when the annotations in them do. -/
theorem Value.hashBy_of_alike {f : Description → Eval UInt64} {R : Description → Description → Prop}
    (hashed : ∀ d e, R d e → ∃ n, (f d).result = .ok n ∧ (f e).result = .ok n) {v w : Value}
    (h : Alike R v w) : ∃ n, (hashBy f v).result = .ok n ∧ (hashBy f w).result = .ok n := by
  have first : ∀ d e, R d e → ∃ n, (f d).result = .ok n := by
    intro d e related
    obtain ⟨n, hd, -⟩ := hashed d e related
    exact ⟨n, hd⟩
  have agree : ∀ d e, R d e → (f d).result = (f e).result := by
    intro d e related
    obtain ⟨n, hd, he⟩ := hashed d e related
    exact hd.trans he.symm
  obtain ⟨n, hn⟩ := exists_hashBy first h
  exact ⟨n, hn, (hashBy_congr agree h).symm.trans hn⟩

namespace Description

/-- **Annotations that report the same have the same hash.** -/
theorem hashWithin_of_sameWithin {limit room : Nat} {d e : Description}
    (hd : d.Everywhere Proper) (he : e.Everywhere Proper) (same : SameWithin room d e) :
    ∃ n, (hashWithin limit room d).result = .ok n ∧ (hashWithin limit room e).result = .ok n := by
  induction room generalizing d e with
  | zero => exact same.elim
  | succ room ih =>
    obtain ⟨-, perm, values⟩ := same
    refine exists_hashWithin_of_hashesTo hd.self he.self perm fun n hn ↦ ?_
    obtain ⟨x, y, hx, hy, alike⟩ := values n hn
    -- Only annotations that occur in the two values are hashed one level down.
    have inside : ∀ p q, SameWithin room p q ∧ x.Holds p ∧ y.Holds q →
        ∃ m, (hashWithin limit room p).result = .ok m ∧
          (hashWithin limit room q).result = .ok m := by
      rintro p q ⟨same, hp, hq⟩
      exact ih (hd.value (reports_of_named hx) p hp) (he.value (reports_of_named hy) q hq) same
    obtain ⟨m, hxm, hym⟩ := Value.hashBy_of_alike inside alike.holding
    exact ⟨m, ⟨x, hx, hxm⟩, y, hy, hym⟩

end Description

namespace Registry

variable {w : Registry}

/-- Within a registry every annotation answers its own accessors as under their names. -/
theorem proper_of_orderly {d : Description} (hd : d.Everywhere w.Orderly) :
    d.Everywhere Description.Proper :=
  hd.mono fun _ h ↦ h.admits.proper

/-- **Equal values have the same hash**, under every limit for the levels that may be entered. -/
theorem hashBy_of_equalBy {limit limit' room : Nat} {x y : Value} (hx : x.Everywhere w.Orderly)
    (hy : y.Everywhere w.Orderly)
    (equal : (Value.equalBy (Description.equalWithin limit room) x y).result = .ok true) :
    ∃ n, (Value.hashBy (Description.hashWithin limit' room) x).result = .ok n ∧
      (Value.hashBy (Description.hashWithin limit' room) y).result = .ok n := by
  have alike := (Value.equalBy_iff_sameWithin hx hy).1 equal
  refine Value.hashBy_of_alike ?_ alike.holding
  rintro d e ⟨same, hd, he⟩
  exact Description.hashWithin_of_sameWithin (proper_of_orderly (hx d hd))
    (proper_of_orderly (hy e he)) same

/-- **Equal things have equal hashes.** For two annotations, or two values, in any mixture of stated
and live ones within a registry: if they are found equal under a limit, then both have a hash under
that limit, and it is the same. The types of two equal annotations may list their accessors in
different orders. -/
theorem hash_eq_of_equal (w : Registry) (limit : Nat) :
    (∀ l r : Description, l.Everywhere w.Orderly → r.Everywhere w.Orderly →
      (l.equal limit r).result = .ok true →
        ∃ n, (l.hash limit).result = .ok n ∧ (r.hash limit).result = .ok n) ∧
    (∀ x y : Value, x.Everywhere w.Orderly → y.Everywhere w.Orderly →
      (x.equal limit y).result = .ok true →
        ∃ n, (x.hash limit).result = .ok n ∧ (y.hash limit).result = .ok n) := by
  constructor
  · intro l r hl hr equal
    have same := (Description.equalWithin_iff_sameWithin hl hr).1 equal
    exact Description.hashWithin_of_sameWithin (proper_of_orderly hl) (proper_of_orderly hr) same
  · intro x y hx hy equal
    exact hashBy_of_equalBy hx hy equal

/-! ### One annotation in two forms -/

/-- A type with a number and a marker, always the same. -/
def pairType : LiveType :=
  .ofMethods "com.example.Pair"
    [.accessor "weight" .int (.fixed (.ok (.int 3))),
      .accessor "marker" (.nested "com.example.Marker") (.fixed (.ok (.object (.marker ⟨7⟩))))]

theorem regular_pairTypes : ∀ t ∈ [pairType, Marker.liveType], t.Regular := by
  intro t ht
  obtain rfl | rfl : t = pairType ∨ t = Marker.liveType := by simpa using ht
  · exact LiveType.regular_ofMethods (by decide)
  · exact LiveType.regular_ofMethods (by decide)

/-- The types of a pair and of the marker in it. -/
def pairs : Registry := .ofList [pairType, Marker.liveType] (by decide) regular_pairTypes

/-- A pair that exists as an object. -/
def livePair : Description :=
  .ofInstance (.record pairType [])

/-- A stated marker. -/
def statedMarker : Description :=
  .stated ⟨.ofDrafts "com.example.Marker" [⟨"value", .int, none⟩], [("value", .int 7)]⟩

/-- The same pair in stated form. Its type lists the marker first. -/
def statedPair : Description :=
  .stated ⟨.ofDrafts "com.example.Pair"
      [⟨"marker", .nested "com.example.Marker", none⟩, ⟨"weight", .int, none⟩],
    [("marker", .nested statedMarker), ("weight", .int 3)]⟩

theorem everywhere_liveMarker :
    (Description.ofInstance (.marker ⟨7⟩)).Everywhere pairs.Orderly := by
  have admits : pairs.Admits (.ofInstance (.marker ⟨7⟩)) := ⟨rfl, List.mem_cons_of_mem _ (.head _)⟩
  exact Description.everywhere_of_values [.int 7] admits.orderly_live rfl (by simp)

theorem everywhere_livePair : livePair.Everywhere pairs.Orderly := by
  have admits : pairs.Admits livePair := ⟨rfl, .head _⟩
  exact Description.everywhere_of_values [.int 3, .nested (.ofInstance (.marker ⟨7⟩))]
    admits.orderly_live rfl (by simp [everywhere_liveMarker])

theorem everywhere_statedPair : statedPair.Everywhere pairs.Orderly := by
  have marker : statedMarker.Everywhere pairs.Orderly :=
    Description.everywhere_of_values [.int 7] ⟨admits_ofDrafts .., by decide⟩ rfl (by simp)
  exact Description.everywhere_of_values [.nested statedMarker, .int 3]
    ⟨admits_ofDrafts .., by decide⟩ rfl (by simp [marker])

/-- The two forms list their accessors in different orders, and they are found equal. -/
theorem hash_eq_of_equal_pair :
    livePair.type.accessorNames = ["weight", "marker"] ∧
      statedPair.type.accessorNames = ["marker", "weight"] ∧
      (livePair.equal 64 statedPair).result = .ok true ∧
      ∃ n, (livePair.hash 64).result = .ok n ∧ (statedPair.hash 64).result = .ok n :=
  ⟨rfl, rfl, rfl,
    (hash_eq_of_equal pairs 64).1 livePair statedPair everywhere_livePair everywhere_statedPair rfl⟩

end Registry

end Annotations
