import Annotations.Description.Detach
import Annotations.Description.Equality
import Annotations.Description.Hash
import Annotations.Description.Render
import Mathlib.Data.List.Forall2
import Mathlib.Data.List.Zip

/-!
# Values that are alike

Equality, hashing, showing and detaching all walk through a value in the same way and leave its
nested annotations to a function that they are given. `Value.Alike R` is what the walks have in
common: the two values have the same shape and the same scalars, types of the same name and
constants that are the same, and `R` holds of the annotations at the same places.

Each walk is then described once, with `R` for what is known of the given function:

* two values are equal exactly when they are alike in annotations that are equal
  (`equalBy_eq_true_iff`), and what a value is compared with may be replaced by what it is alike to
  (`equalBy_congr`);
* alike values have the same hash and are shown the same (`hashBy_congr`, `renderBy_congr`);
* a detached value is alike to the value (`alike_of_detachBy`).

`Alike.holding` adds to `R` that the annotations occur in the two values; by it facts about what can
be reached from a value enter a comparison.
-/

namespace Annotations.Value

/-! ### Going through a value -/

/-- The annotation is the value, or occurs in an element of it. -/
inductive Holds : Value → Description → Prop
  | nested (d : Description) : Holds (.nested d) d
  | array {vs : List Value} {v : Value} {d : Description} (mem : v ∈ vs) (holds : Holds v d) :
    Holds (.array vs) d

theorem holds_nested_iff {d e : Description} : (nested d).Holds e ↔ e = d := by
  constructor
  · intro h
    cases h
    rfl
  · rintro rfl
    exact .nested e

theorem holds_array_iff {vs : List Value} {d : Description} :
    (array vs).Holds d ↔ ∃ v ∈ vs, v.Holds d := by
  constructor
  · intro h
    cases h with
    | array mem holds => exact ⟨_, mem, holds⟩
  · rintro ⟨v, mem, holds⟩
    exact .array mem holds

mutual

/-- Induction over arrays: a property holds of every value if it holds of those that are no arrays,
and of an array when it holds of its elements. -/
@[elab_as_elim]
theorem array_induction {P : Value → Prop} (other : ∀ v, (∀ vs, v ≠ .array vs) → P v)
    (array : ∀ vs, (∀ v ∈ vs, P v) → P (.array vs)) : (v : Value) → P v
  | .array vs => array vs (forall_mem_of_array_induction other array vs)
  | .boolean _ => other _ (by simp)
  | .byte _ => other _ (by simp)
  | .char _ => other _ (by simp)
  | .short _ => other _ (by simp)
  | .int _ => other _ (by simp)
  | .long _ => other _ (by simp)
  | .float _ => other _ (by simp)
  | .double _ => other _ (by simp)
  | .string _ => other _ (by simp)
  | .type _ => other _ (by simp)
  | .constant _ => other _ (by simp)
  | .nested _ => other _ (by simp)

private theorem forall_mem_of_array_induction {P : Value → Prop}
    (other : ∀ v, (∀ vs, v ≠ .array vs) → P v)
    (array : ∀ vs, (∀ v ∈ vs, P v) → P (.array vs)) : (vs : List Value) → ∀ v ∈ vs, P v
  | [] => by simp
  | v :: vs => by
    intro w hw
    rcases List.mem_cons.1 hw with heq | hw
    · exact heq ▸ array_induction other array v
    · exact forall_mem_of_array_induction other array vs w hw

end

/-! ### Alike values -/

/-- Two values that differ at most in how their types, constants and annotations are represented,
where `R` holds of the annotations. -/
inductive Alike (R : Description → Description → Prop) : Value → Value → Prop
  | boolean (b : Bool) : Alike R (.boolean b) (.boolean b)
  | byte (n : Int8) : Alike R (.byte n) (.byte n)
  | char (c : Char) : Alike R (.char c) (.char c)
  | short (n : Int16) : Alike R (.short n) (.short n)
  | int (n : Int32) : Alike R (.int n) (.int n)
  | long (n : Int64) : Alike R (.long n) (.long n)
  | float (x : Binary32) : Alike R (.float x) (.float x)
  | double (x : Binary64) : Alike R (.double x) (.double x)
  | string (s : String) : Alike R (.string s) (.string s)
  | type {t u : TypeDecl} (name : t.name = u.name) : Alike R (.type t) (.type u)
  | constant {c d : Constant} (same : c.same d = true) : Alike R (.constant c) (.constant d)
  | nested {d e : Description} (related : R d e) : Alike R (.nested d) (.nested e)
  | array {vs ws : List Value} (length : vs.length = ws.length)
    (elements : ∀ v w, (v, w) ∈ vs.zip ws → Alike R v w) : Alike R (.array vs) (.array ws)

namespace Alike

variable {R T : Description → Description → Prop} {v w : Value}

theorem mono (sub : ∀ d e, R d e → T d e) (h : Alike R v w) : Alike T v w := by
  induction h with
  | type name => exact .type name
  | constant same => exact .constant same
  | nested related => exact .nested (sub _ _ related)
  | array length _ ih => exact .array length ih
  | _ => constructor

/-- Both annotations occur in the values that are compared. -/
theorem holding (h : Alike R v w) : Alike (fun d e ↦ R d e ∧ v.Holds d ∧ w.Holds e) v w := by
  induction h with
  | type name => exact .type name
  | constant same => exact .constant same
  | nested related => exact .nested ⟨related, .nested _, .nested _⟩
  | array length _ ih =>
    refine .array length fun x y hxy ↦ (ih x y hxy).mono ?_
    rintro d e ⟨related, hd, he⟩
    obtain ⟨hx, hy⟩ := List.of_mem_zip hxy
    exact ⟨related, .array hx hd, .array hy he⟩
  | _ => constructor

/-- What is related matters only for the annotations in the values. -/
theorem congr (h : ∀ d e, v.Holds d → w.Holds e → (R d e ↔ T d e)) :
    Alike R v w ↔ Alike T v w := by
  constructor
  · intro alike
    exact alike.holding.mono fun d e ⟨related, hd, he⟩ ↦ (h d e hd he).1 related
  · intro alike
    exact alike.holding.mono fun d e ⟨related, hd, he⟩ ↦ (h d e hd he).2 related

theorem symm (h : Alike R v w) : Alike (fun d e ↦ R e d) w v := by
  induction h with
  | type name => exact .type name.symm
  | constant same =>
    obtain ⟨typeName, name⟩ := Constant.same_iff.1 same
    exact .constant (Constant.same_iff.2 ⟨typeName.symm, name.symm⟩)
  | nested related => exact .nested related
  | array length _ ih =>
    refine .array length.symm fun x y hxy ↦ ih y x ?_
    rw [← List.zip_swap]
    exact List.mem_map.2 ⟨(x, y), hxy, rfl⟩
  | _ => constructor

/-- Between the annotations of the outer values stand those of the middle one. -/
theorem trans {u : Value} (h : Alike R v w) (k : Alike T w u) :
    Alike (fun d f ↦ ∃ e, R d e ∧ T e f) v u := by
  induction h generalizing u with
  | type name =>
    cases k with
    | type name' => exact .type (name.trans name')
  | constant same =>
    cases k with
    | constant same' =>
      obtain ⟨typeName, name⟩ := Constant.same_iff.1 same
      obtain ⟨typeName', name'⟩ := Constant.same_iff.1 same'
      exact .constant (Constant.same_iff.2 ⟨typeName.trans typeName', name.trans name'⟩)
  | nested related =>
    cases k with
    | nested related' => exact .nested ⟨_, related, related'⟩
  | @array xs ys length _ ih =>
    cases k with
    | @array _ zs length' elements' =>
      refine .array (length.trans length') fun x z hxz ↦ ?_
      -- The element in the middle is the one at the same place.
      obtain ⟨i, hi⟩ := List.mem_iff_getElem?.1 hxz
      obtain ⟨hx, hz⟩ := List.getElem?_zip_eq_some.1 hi
      have short : i < ys.length := length ▸ (List.getElem?_eq_some_iff.1 hx).1
      have hy := List.getElem?_eq_getElem short
      have first : (x, ys[i]) ∈ xs.zip ys :=
        List.mem_of_getElem? (List.getElem?_zip_eq_some.2 ⟨hx, hy⟩)
      have second : (ys[i], z) ∈ ys.zip zs :=
        List.mem_of_getElem? (List.getElem?_zip_eq_some.2 ⟨hy, hz⟩)
      exact ih x ys[i] first (elements' ys[i] z second)
  | _ =>
    cases k
    constructor

/-- A value is alike to itself when its annotations are related to themselves. -/
theorem refl (h : ∀ d, v.Holds d → R d d) : Alike R v v := by
  induction v using array_induction with
  | other v hv =>
    cases v with
    | type t => exact .type rfl
    | constant c => exact .constant (Constant.same_iff.2 ⟨rfl, rfl⟩)
    | nested d => exact .nested (h d (.nested d))
    | array vs => exact absurd rfl (hv vs)
    | _ => constructor
  | array vs ih =>
    refine .array rfl fun x y hxy ↦ ?_
    have hx : x ∈ vs := (List.of_mem_zip hxy).1
    have diagonal : List.Forall₂ (· = ·) vs vs := List.forall₂_same.2 fun _ _ ↦ rfl
    have heq : x = y := (List.forall₂_iff_zip.1 diagonal).2 hxy
    exact heq ▸ ih x hx fun d hd ↦ h d (.array hx hd)

end Alike

/-! ### Equality -/

section Equality

variable {f g : Description → Description → Eval Bool}

/-- Lists are found equal when the elements at the same places are. -/
private theorem allEqualBy_eq_true_iff {vs ws : List Value} :
    (allEqualBy f vs ws).result = .ok true ↔
      ∀ v w, (v, w) ∈ vs.zip ws → (equalBy f v w).result = .ok true := by
  induction vs generalizing ws with
  | nil => simp [allEqualBy]
  | cons v vs ih =>
    cases ws with
    | nil => simp [allEqualBy]
    | cons w ws =>
      rw [allEqualBy, Eval.result_bind_eq_ok]
      simp only [List.zip_cons_cons, List.mem_cons, Prod.mk.injEq]
      constructor
      · rintro ⟨_ | _, first, rest⟩
        · simp at rest
        · rintro x y (⟨rfl, rfl⟩ | hxy)
          · exact first
          · exact ih.1 rest x y hxy
      · intro h
        exact ⟨true, h v w (.inl ⟨rfl, rfl⟩), ih.2 fun x y hxy ↦ h x y (.inr hxy)⟩

/-- **Two values are equal exactly when they are alike in equal annotations.** -/
theorem equalBy_eq_true_iff {v w : Value} :
    (equalBy f v w).result = .ok true ↔ Alike (fun d e ↦ (f d e).result = .ok true) v w := by
  constructor
  · -- Whatever the left value is, only a right value of the same form does not end in `false`.
    intro h
    induction v using array_induction generalizing w with
    | other v hv =>
      cases v with
      | array vs => exact absurd rfl (hv vs)
      | nested d =>
        cases w with
        | nested e => exact .nested h
        | _ => simp [equalBy] at h
      | type t =>
        cases w with
        | type u => exact .type (by simpa [equalBy] using h)
        | _ => simp [equalBy] at h
      | constant c =>
        cases w with
        | constant d => exact .constant (by simpa [equalBy] using h)
        | _ => simp [equalBy] at h
      | _ =>
        cases w <;> simp [equalBy] at h
        subst h
        constructor
    | array vs ih =>
      cases w with
      | array ws =>
        rw [equalBy] at h
        by_cases length : vs.length = ws.length
        · rw [if_pos length] at h
          refine .array length fun x y hxy ↦ ?_
          exact ih x (List.of_mem_zip hxy).1 (allEqualBy_eq_true_iff.1 h x y hxy)
        · simp [length] at h
      | _ => simp [equalBy] at h
  · intro h
    induction h with
    | type name => simp [equalBy, name]
    | constant same => simp [equalBy, same]
    | nested related => exact related
    | array length _ ih =>
      rw [equalBy, if_pos length]
      exact allEqualBy_eq_true_iff.2 ih
    | _ => simp [equalBy]

private theorem allEqualBy_congr {P Q : Value → Value → Prop}
    (agree : ∀ v w x y, P v w → Q x y → (equalBy f v x).result = (equalBy g w y).result)
    {vs ws xs ys : List Value} (left : List.Forall₂ P vs ws) (right : List.Forall₂ Q xs ys) :
    (allEqualBy f vs xs).result = (allEqualBy g ws ys).result := by
  induction left generalizing xs ys with
  | nil => simp [allEqualBy]
  | cons hvw _ ih =>
    cases right with
    | nil => simp [allEqualBy]
    | cons hxy right =>
      rw [allEqualBy, allEqualBy]
      refine Eval.result_bind_congr (agree _ _ _ _ hvw hxy) fun b _ ↦ ?_
      cases b with
      | false => rfl
      | true => exact ih right

/-- A comparison ends alike when both of its sides are replaced by alike values, as far as the
comparison of the annotations in them does. -/
theorem equalBy_congr {R T : Description → Description → Prop}
    (agree : ∀ d e x y, R d e → T x y → (f d x).result = (g e y).result)
    {v w x y : Value} (left : Alike R v w) (right : Alike T x y) :
    (equalBy f v x).result = (equalBy g w y).result := by
  induction left generalizing x y with
  | type name =>
    cases right with
    | type name' => simp [equalBy, name, name']
    | _ => rfl
  | constant same =>
    cases right with
    | constant same' =>
      obtain ⟨typeName, name⟩ := Constant.same_iff.1 same
      obtain ⟨typeName', name'⟩ := Constant.same_iff.1 same'
      simp [equalBy, Constant.same, typeName, name, typeName', name']
    | _ => rfl
  | nested related =>
    cases right with
    | nested related' => exact agree _ _ _ _ related related'
    | _ => rfl
  | array length _ ih =>
    cases right with
    | array length' elements' =>
      rw [equalBy, equalBy, length, length']
      split
      · -- What the induction knows of each pair on the left holds against all alike right sides.
        have elements : List.Forall₂ (fun v w ↦ ∀ {x y}, Alike T x y →
            (equalBy f v x).result = (equalBy g w y).result) _ _ :=
          List.forall₂_iff_zip.2 ⟨length, fun hvw ↦ ih _ _ hvw⟩
        exact allEqualBy_congr (fun v w x y h k ↦ h k) elements
          (List.forall₂_iff_zip.2 ⟨length', fun hxy ↦ elements' _ _ hxy⟩)
      · rfl
    | _ => rfl
  | _ => cases right <;> rfl

end Equality

/-! ### Hashing -/

section Hashing

variable {f g : Description → Eval UInt64}

private theorem hashAllBy_congr {vs ws : List Value}
    (h : List.Forall₂ (fun v w ↦ (hashBy f v).result = (hashBy g w).result) vs ws) (n : UInt64) :
    (hashAllBy f n vs).result = (hashAllBy g n ws).result := by
  induction h generalizing n with
  | nil => rfl
  | cons hvw _ ih =>
    rw [hashAllBy, hashAllBy]
    exact Eval.result_bind_congr hvw fun m _ ↦ ih _

/-- **Alike values have the same hash**, as far as the annotations in them do. -/
theorem hashBy_congr {R : Description → Description → Prop}
    (agree : ∀ d e, R d e → (f d).result = (g e).result) {v w : Value} (h : Alike R v w) :
    (hashBy f v).result = (hashBy g w).result := by
  induction h with
  | type name => simp [hashBy, TypeDecl.digest, name]
  | constant same => simp [hashBy, Constant.digest_eq_of_same same]
  | nested related => exact agree _ _ related
  | array length _ ih =>
    rw [hashBy, hashBy]
    exact hashAllBy_congr (List.forall₂_iff_zip.2 ⟨length, fun hxy ↦ ih _ _ hxy⟩) 1
  | _ => rfl

private theorem exists_hashAllBy {vs ws : List Value}
    (h : List.Forall₂ (fun v _ ↦ ∃ m, (hashBy f v).result = .ok m) vs ws) (n : UInt64) :
    ∃ m, (hashAllBy f n vs).result = .ok m := by
  induction h generalizing n with
  | nil => exact ⟨n, rfl⟩
  | cons hv _ ih =>
    obtain ⟨m, hm⟩ := hv
    rw [hashAllBy, Eval.result_bind_of_eq_ok hm]
    exact ih _

/-- A value that is alike to another has a hash, as far as the annotations in it do. -/
theorem exists_hashBy {R : Description → Description → Prop}
    (hashed : ∀ d e, R d e → ∃ n, (f d).result = .ok n) {v w : Value} (h : Alike R v w) :
    ∃ n, (hashBy f v).result = .ok n := by
  induction h with
  | nested related => exact hashed _ _ related
  | array length _ ih =>
    rw [hashBy]
    exact exists_hashAllBy (List.forall₂_iff_zip.2 ⟨length, fun hxy ↦ ih _ _ hxy⟩) 1
  | _ => exact ⟨_, rfl⟩

end Hashing

/-! ### Showing -/

section Showing

variable {f g : Description → Traced String}

private theorem renderAllBy_congr {vs ws : List Value}
    (h : List.Forall₂ (fun v w ↦ (renderBy f v).value = (renderBy g w).value) vs ws) :
    (renderAllBy f vs).value = (renderAllBy g ws).value := by
  induction h with
  | nil => rfl
  | cons hvw _ ih => simp [renderAllBy, hvw, ih]

/-- **Alike values are shown the same**, as far as the annotations in them are. -/
theorem renderBy_congr {R : Description → Description → Prop}
    (agree : ∀ d e, R d e → (f d).value = (g e).value) {v w : Value} (h : Alike R v w) :
    (renderBy f v).value = (renderBy g w).value := by
  induction h with
  | type name => simp [renderBy, name]
  | constant same =>
    obtain ⟨typeName, name⟩ := Constant.same_iff.1 same
    simp [renderBy, Constant.text, typeName, name]
  | nested related => exact agree _ _ related
  | array length _ ih =>
    have shown := renderAllBy_congr (List.forall₂_iff_zip.2 ⟨length, fun hxy ↦ ih _ _ hxy⟩)
    simp [renderBy, shown]
  | _ => rfl

end Showing

/-! ### Detaching -/

section Detaching

variable {f : Description → Eval Stated}

theorem forall₂_of_detachAllBy {vs ws : List Value}
    (h : (detachAllBy f vs).result = .ok ws) :
    List.Forall₂ (fun v w ↦ (detachBy f v).result = .ok w) vs ws := by
  induction vs generalizing ws with
  | nil =>
    cases h
    exact .nil
  | cons v vs ih =>
    rw [detachAllBy] at h
    obtain ⟨w, hw, h⟩ := Eval.result_bind_eq_ok.1 h
    obtain ⟨rest, hrest, h⟩ := Eval.result_bind_eq_ok.1 h
    cases h
    exact .cons hw (ih hrest)

/-- **A detached value is alike to the value**: the annotations in it are the detached ones. -/
theorem alike_of_detachBy {v w : Value} (h : (detachBy f v).result = .ok w) :
    Alike (fun d e ↦ ∃ s, (f d).result = .ok s ∧ e = .stated s) v w := by
  induction v using array_induction generalizing w with
  | other v hv =>
    cases v with
    | nested d =>
      obtain ⟨s, hs, h⟩ := Eval.result_bind_eq_ok.1 h
      cases h
      exact .nested ⟨s, hs, rfl⟩
    | constant c =>
      cases h
      exact .constant (Constant.same_iff.2 ⟨rfl, rfl⟩)
    | type t =>
      cases h
      exact .type rfl
    | array vs => exact absurd rfl (hv vs)
    | _ =>
      cases h
      constructor
  | array vs ih =>
    obtain ⟨ws, hws, h⟩ := Eval.result_bind_eq_ok.1 h
    cases h
    obtain ⟨length, elements⟩ := List.forall₂_iff_zip.1 (forall₂_of_detachAllBy hws)
    exact .array length fun x y hxy ↦ ih x (List.of_mem_zip hxy).1 (elements hxy)

end Detaching

end Annotations.Value
