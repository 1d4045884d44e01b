import Annotations.Entries
import Mathlib.Data.List.Nodup
import Mathlib.Data.List.Induction

/-!
# Entries in order

More about named entries that are set one after the other. They are gone through from the end, the
last one being set last (`ofList_concat`): the names are those of the entries, each in the place of
its first entry (`names_ofList`), and entries of different names are kept as they are
(`ofList_of_nodup`).

Entries may be made by a function that finds a value for each name, or fails. Finding a value twice
is then no other than finding it once (`ofList_mapM_find`).

Two lists that have the same entries of each name, in the same order, differ only in how entries of
different names are placed (`SameByName`); the last entries of a name are the same.
-/

namespace Annotations.Entries

variable {α ε : Type}

/-! ### Names without repetitions -/

theorem nodup_eraseDups : (ns : List String) → ns.eraseDups.Nodup
  | [] => by simp
  | n :: ns => by
    rw [List.eraseDups_cons, List.nodup_cons, List.mem_eraseDups]
    exact ⟨by simp, nodup_eraseDups _⟩
termination_by ns => ns.length
decreasing_by exact Nat.lt_succ_of_le (List.length_filter_le _ ns)

theorem eraseDups_of_nodup {ns : List String} (h : ns.Nodup) : ns.eraseDups = ns := by
  induction ns with
  | nil => rfl
  | cons n ns ih =>
    obtain ⟨new, rest⟩ := List.nodup_cons.1 h
    have others : ns.filter (fun m ↦ !m == n) = ns :=
      List.filter_eq_self.2 fun m hm ↦ by
        simpa using fun heq : m = n ↦ new (heq ▸ hm)
    rw [List.eraseDups_cons, others, ih rest]

/-- A new name at the end is kept, a known one is not. -/
theorem eraseDups_concat (ns : List String) (n : String) :
    (ns ++ [n]).eraseDups = if n ∈ ns then ns.eraseDups else ns.eraseDups ++ [n] := by
  rw [List.eraseDups_append]
  by_cases known : n ∈ ns <;> simp [List.removeAll, known, List.eraseDups_cons]

/-! ### Setting -/

theorem set_of_not_mem {n : String} {a : α} {es : List (String × α)} (new : n ∉ names es) :
    set n a es = es ++ [(n, a)] := by
  induction es with
  | nil => rfl
  | cons e es ih =>
    obtain ⟨first, rest⟩ := List.ne_and_not_mem_of_not_mem_cons new
    rw [set, if_neg (Ne.symm first), ih rest, List.cons_append]

theorem set_of_lookup {n : String} {a : α} {es : List (String × α)} (h : es.lookup n = some a) :
    set n a es = es := by
  induction es with
  | nil => cases h
  | cons e es ih =>
    obtain ⟨m, b⟩ := e
    rw [lookup_cons] at h
    rw [set]
    by_cases same : m = n
    · subst same
      cases (if_pos rfl).symm.trans h
      rw [if_pos rfl]
    · rw [if_neg (Ne.symm same)] at h
      rw [if_neg same, ih h]

theorem mem_of_mem_set {n : String} {a : α} {e : String × α} {es : List (String × α)}
    (h : e ∈ set n a es) : e = (n, a) ∨ e ∈ es := by
  induction es with
  | nil => exact .inl (List.mem_singleton.1 h)
  | cons f es ih =>
    rw [set] at h
    split at h
    · rename_i same
      rcases List.mem_cons.1 h with rfl | h
      · exact .inl (same ▸ rfl)
      · exact .inr (List.mem_cons_of_mem _ h)
    · rcases List.mem_cons.1 h with rfl | h
      · exact .inr List.mem_cons_self
      · exact (ih h).imp_right (List.mem_cons_of_mem _)

theorem ofList_concat (es : List (String × α)) (e : String × α) :
    ofList (es ++ [e]) = set e.1 e.2 (ofList es) := by
  rw [ofList, List.foldl_append]
  rfl

/-- Entries that are set in order have their names, each in the place of its first entry. -/
theorem names_ofList (es : List (String × α)) : names (ofList es) = (names es).eraseDups := by
  induction es using List.reverseRecOn with
  | nil => rfl
  | append_singleton es e ih =>
    have names_concat : names (es ++ [e]) = names es ++ [e.1] := List.map_append
    rw [ofList_concat, names_set, names_concat, eraseDups_concat]
    simp only [ih, List.mem_eraseDups]

theorem nodup_names_ofList (es : List (String × α)) : (names (ofList es)).Nodup :=
  names_ofList es ▸ nodup_eraseDups _

/-- Setting entries of different names changes nothing. -/
theorem ofList_of_nodup {es : List (String × α)} (h : (names es).Nodup) : ofList es = es := by
  induction es using List.reverseRecOn with
  | nil => rfl
  | append_singleton es e ih =>
    rw [names, List.map_append, List.nodup_append] at h
    obtain ⟨distinct, -, apart⟩ := h
    have new : e.1 ∉ names es := fun hmem ↦ apart _ hmem e.1 (by simp) rfl
    rw [ofList_concat, ih distinct, set_of_not_mem new]

/-- What is there after entries have been set is one of them. -/
theorem mem_of_mem_ofList {e : String × α} {es : List (String × α)} (h : e ∈ ofList es) :
    e ∈ es := by
  induction es using List.reverseRecOn with
  | nil => exact h
  | append_singleton es f ih =>
    rw [ofList_concat] at h
    rcases mem_of_mem_set h with rfl | h
    · exact List.mem_append_right _ List.mem_cons_self
    · exact List.mem_append_left _ (ih h)

/-! ### Looking up and removing -/

theorem lookup_eq_none_iff {es : List (String × α)} {n : String} :
    es.lookup n = none ↔ n ∉ names es := by
  rw [List.lookup_eq_none_iff, names, List.mem_map]
  constructor
  · rintro h ⟨e, he, rfl⟩
    simpa using h e he
  · intro h e he
    simpa using fun heq : n = e.1 ↦ h ⟨e, he, heq.symm⟩

theorem mem_of_lookup {es : List (String × α)} {n : String} {a : α} (h : es.lookup n = some a) :
    (n, a) ∈ es := by
  obtain ⟨before, after, heq, -⟩ := List.lookup_eq_some_iff.1 h
  exact heq ▸ List.mem_append_right before List.mem_cons_self

/-- Looking up goes by the names only. -/
theorem lookup_map {β : Type} (f : α → β) (n : String) (es : List (String × α)) :
    (es.map fun e ↦ (e.1, f e.2)).lookup n = (es.lookup n).map f := by
  induction es with
  | nil => rfl
  | cons e es ih =>
    rw [List.map_cons, lookup_cons, lookup_cons, ih]
    split <;> rfl

/-- The entries of a list without repeated names are found by their names. -/
theorem lookup_of_mem {es : List (String × α)} (distinct : (names es).Nodup) {e : String × α}
    (he : e ∈ es) : es.lookup e.1 = some e.2 := by
  induction es with
  | nil => cases he
  | cons f es ih =>
    obtain ⟨new, rest⟩ := List.nodup_cons.1 distinct
    rw [lookup_cons]
    rcases List.mem_cons.1 he with rfl | he
    · rw [if_pos rfl]
    · have hne : e.1 ≠ f.1 := fun same ↦ new (same ▸ List.mem_map_of_mem he)
      rw [if_neg hne, ih rest he]

/-- Entries of the same different names are the same if they are found the same. -/
theorem eq_of_lookup {es fs : List (String × α)} (same : names es = names fs)
    (distinct : (names es).Nodup) (found : ∀ n ∈ names es, es.lookup n = fs.lookup n) : es = fs := by
  induction es generalizing fs with
  | nil => exact (List.map_eq_nil_iff.1 same.symm).symm
  | cons e es ih =>
    cases fs with
    | nil => cases same
    | cons f fs =>
      obtain ⟨head, tail⟩ := List.cons_eq_cons.1 same
      obtain ⟨new, rest⟩ := List.nodup_cons.1 distinct
      have value : e.2 = f.2 := by simpa [lookup_cons, head] using found e.1 List.mem_cons_self
      rw [Prod.ext head value, ih tail rest fun n hn ↦ ?_]
      have other : n ≠ e.1 := fun heq ↦ new (heq ▸ hn)
      simpa [lookup_cons, other, head ▸ other] using found n (List.mem_cons_of_mem _ hn)

/-- Of two entries of one name the later one counts. -/
theorem lookup_reverse_cons (n : String) (e : String × α) (es : List (String × α)) :
    (e :: es).reverse.lookup n =
      if n ∈ names es then es.reverse.lookup n else if n = e.1 then some e.2 else none := by
  rw [List.reverse_cons, List.lookup_append, lookup_cons, List.lookup_nil]
  have iff : es.reverse.lookup n = none ↔ n ∉ names es := by
    rw [lookup_eq_none_iff, names, List.map_reverse, List.mem_reverse, names]
  by_cases later : n ∈ names es
  · obtain ⟨a, ha⟩ := Option.ne_none_iff_exists'.1 (mt iff.1 (not_not_intro later))
    simp [later, ha]
  · simp [later, iff.2 later]

theorem lookup_remove_self {n : String} {es : List (String × α)} (h : (names es).Nodup) :
    (remove n es).lookup n = none := by
  induction es with
  | nil => rfl
  | cons e es ih =>
    obtain ⟨m, a⟩ := e
    obtain ⟨new, rest⟩ := List.nodup_cons.1 h
    rw [remove]
    split
    · rename_i heq
      exact lookup_eq_none_iff.2 (heq ▸ new)
    · rename_i hne
      rw [lookup_cons, if_neg (fun heq ↦ hne heq.symm), ih rest]

theorem sublist_remove (n : String) (es : List (String × α)) : (remove n es).Sublist es := by
  induction es with
  | nil => exact .slnil
  | cons e es ih =>
    obtain ⟨m, a⟩ := e
    rw [remove]
    split
    · exact List.sublist_cons_self _ es
    · exact ih.cons_cons _

theorem nodup_names_remove {n : String} {es : List (String × α)} (h : (names es).Nodup) :
    (names (remove n es)).Nodup :=
  ((sublist_remove n es).map Prod.fst).nodup h

/-! ### Finding values by their names -/

/-- The entry of a name, when its value can be found. -/
def find (g : String → Except ε α) (n : String) : Except ε (String × α) :=
  (g n).map fun a ↦ (n, a)

private theorem find_eq_ok_iff {g : String → Except ε α} {n : String} {e : String × α} :
    find g n = .ok e ↔ e.1 = n ∧ g n = .ok e.2 := by
  obtain ⟨m, b⟩ := e
  rw [find]
  cases g n <;> simp [Except.map, and_comm, eq_comm]

private theorem mapM_find_eq_ok {g : String → Except ε α} {ns : List String}
    {es : List (String × α)} (h : ns.mapM (find g) = .ok es) :
    names es = ns ∧ ∀ e ∈ es, g e.1 = .ok e.2 := by
  induction ns generalizing es with
  | nil =>
    cases h
    simp
  | cons n ns ih =>
    rw [List.mapM_cons] at h
    cases first : find g n with
    | error err => simp [first, bind, Except.bind] at h
    | ok e =>
      cases rest : ns.mapM (find g) with
      | error err => simp [first, rest, bind, Except.bind] at h
      | ok found =>
        rw [first, rest] at h
        cases h
        obtain ⟨rfl, value⟩ := find_eq_ok_iff.1 first
        obtain ⟨names, values⟩ := ih rest
        exact ⟨by rw [names_cons, names], List.forall_mem_cons.2 ⟨value, values⟩⟩

/-- **Finding an entry twice is finding it once**, when the entries are set afterwards. -/
theorem ofList_mapM_find (g : String → Except ε α) (ns : List String) :
    (ns.mapM (find g)).map ofList = ns.eraseDups.mapM (find g) := by
  induction ns using List.reverseRecOn with
  | nil => rfl
  | append_singleton ns n ih =>
    rw [eraseDups_concat, List.mapM_append]
    cases found : ns.mapM (find g) with
    | error err =>
      rw [found] at ih
      split
      · exact ih
      · rw [List.mapM_append, ← ih]
        rfl
    | ok es =>
      obtain ⟨known, values⟩ := mapM_find_eq_ok found
      rw [found] at ih
      split
      · next mem =>
        -- The entry is there already, with this value.
        obtain ⟨a, lookup, hmem⟩ := exists_lookup_ofList (known ▸ mem)
        have again : find g n = .ok (n, a) := find_eq_ok_iff.2 ⟨rfl, values _ hmem⟩
        have same : ofList (es ++ [(n, a)]) = ofList es := by
          rw [ofList_concat, set_of_lookup lookup]
        rw [← ih, List.mapM_cons, again]
        exact congrArg Except.ok same
      · next new =>
        rw [List.mapM_append, ← ih, List.mapM_cons]
        cases last : find g n with
        | error err => rfl
        | ok e =>
          obtain ⟨rfl, -⟩ := find_eq_ok_iff.1 last
          have new : e.1 ∉ names (ofList es) := by rwa [names_ofList, known, List.mem_eraseDups]
          exact congrArg Except.ok ((ofList_concat es e).trans (set_of_not_mem new))

/-! ### Reordering -/

/-- The entries of each name are the same, in the same order. -/
def SameByName (es fs : List (String × α)) : Prop :=
  ∀ n, es.filter (·.1 == n) = fs.filter (·.1 == n)

/-- Entries of different names may change places. -/
theorem sameByName_swap {e f : String × α} (different : e.1 ≠ f.1) (es fs : List (String × α)) :
    SameByName (es ++ e :: f :: fs) (es ++ f :: e :: fs) := by
  intro n
  rw [List.filter_append, List.filter_append]
  by_cases he : e.1 = n
  · have hf : f.1 ≠ n := fun hf ↦ different (he.trans hf.symm)
    simp [he, hf]
  · simp [List.filter_cons, he]

private theorem lookup_filter (n : String) (es : List (String × α)) :
    (es.filter (·.1 == n)).lookup n = es.lookup n := by
  induction es with
  | nil => rfl
  | cons e es ih =>
    rw [List.filter_cons, lookup_cons]
    by_cases same : n = e.1
    · simp [same, lookup_cons]
    · simp [same, Ne.symm same, ih]

namespace SameByName

variable {es fs : List (String × α)} (h : SameByName es fs)
include h

theorem mem_iff {e : String × α} : e ∈ es ↔ e ∈ fs := by
  have own : ∀ gs : List (String × α), e ∈ gs ↔ e ∈ gs.filter (·.1 == e.1) := by simp
  rw [own es, own fs, h]

theorem lookup_reverse (n : String) : es.reverse.lookup n = fs.reverse.lookup n := by
  rw [← lookup_filter, List.filter_reverse, h, ← List.filter_reverse, lookup_filter]

end SameByName

end Annotations.Entries
