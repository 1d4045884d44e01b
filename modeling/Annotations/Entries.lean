/-!
# Named entries in order

Lists of named entries as ordered maps. Setting an entry keeps the place of an earlier one of the
same name; looking up finds what was set last under a name (`lookup_set`), and removing a name
leaves the other entries in their order (`lookup_remove_of_ne`). Of entries that are set one after
the other the last one of a name counts (`lookup_ofList`).
-/

namespace Annotations.Entries

variable {α : Type}

/-- Gives `name` the value `a`: in the place of the first entry of that name, or else at the end. -/
def set (name : String) (a : α) : List (String × α) → List (String × α)
  | [] => [(name, a)]
  | (n, b) :: es => if n = name then (n, a) :: es else (n, b) :: set name a es

/-- The entries without the first one of that name. -/
def remove (name : String) : List (String × α) → List (String × α)
  | [] => []
  | (n, b) :: es => if n = name then es else (n, b) :: remove name es

/-- The names in order. -/
def names (es : List (String × α)) : List String :=
  es.map Prod.fst

/-- Sets the entries one after the other, from none. -/
def ofList (es : List (String × α)) : List (String × α) :=
  es.foldl (fun acc e ↦ set e.1 e.2 acc) []

@[simp] theorem names_nil : names ([] : List (String × α)) = [] := rfl

@[simp] theorem names_cons (e : String × α) (es : List (String × α)) :
    names (e :: es) = e.1 :: names es := rfl

theorem lookup_cons (key : String) (e : String × α) (es : List (String × α)) :
    List.lookup key (e :: es) = if key = e.1 then some e.2 else es.lookup key := by
  obtain ⟨n, b⟩ := e
  rw [List.lookup_cons]
  by_cases h : key = n
  · simp [h]
  · simp [h, beq_false_of_ne h]

theorem lookup_set (name key : String) (a : α) (es : List (String × α)) :
    (set name a es).lookup key = if key = name then some a else es.lookup key := by
  induction es with
  | nil => rw [set, lookup_cons]
  | cons e es ih =>
    obtain ⟨n, b⟩ := e
    rw [set, lookup_cons]
    by_cases hn : n = name
    · subst hn
      rw [if_pos rfl, lookup_cons]
      split <;> rfl
    · rw [if_neg hn, lookup_cons, ih]
      by_cases hk : key = n
      · subst hk
        simp [hn]
      · simp [hk]

/-- Setting a new name adds it at the end, setting a known one changes no name. -/
theorem names_set (name : String) (a : α) (es : List (String × α)) :
    names (set name a es) = if name ∈ names es then names es else names es ++ [name] := by
  induction es with
  | nil => simp [set]
  | cons e es ih =>
    obtain ⟨n, b⟩ := e
    by_cases hn : n = name
    · simp [set, hn]
    · have hn' : ¬name = n := fun h ↦ hn h.symm
      simp only [set, hn, if_false, names_cons, ih, List.mem_cons, hn', false_or]
      split <;> simp

theorem lookup_remove_of_ne {name key : String} (h : key ≠ name) (es : List (String × α)) :
    (remove name es).lookup key = es.lookup key := by
  induction es with
  | nil => rfl
  | cons e es ih =>
    obtain ⟨n, b⟩ := e
    rw [remove, lookup_cons]
    by_cases hn : n = name
    · subst hn
      simp [h]
    · rw [if_neg hn, lookup_cons, ih]

private theorem lookup_foldl_set (key : String) (es acc : List (String × α)) :
    (es.foldl (fun acc e ↦ set e.1 e.2 acc) acc).lookup key =
      (es.reverse.lookup key).or (acc.lookup key) := by
  induction es generalizing acc with
  | nil => simp
  | cons e es ih =>
    rw [List.foldl_cons, ih, List.reverse_cons, List.lookup_append, lookup_set, lookup_cons,
      List.lookup_nil, Option.or_assoc]
    by_cases hk : key = e.1 <;> simp [hk]

/-- The last entry of a name counts. -/
theorem lookup_ofList (key : String) (es : List (String × α)) :
    (ofList es).lookup key = es.reverse.lookup key := by
  rw [ofList, lookup_foldl_set, List.lookup_nil, Option.or_none]

/-- What is set under one of the names is found, and it is one of the entries. -/
theorem exists_lookup_ofList {key : String} {es : List (String × α)} (h : key ∈ names es) :
    ∃ a, (ofList es).lookup key = some a ∧ (key, a) ∈ es := by
  have hsome : (es.reverse.lookup key).isSome = true := by
    obtain ⟨e, he, hname⟩ := List.mem_map.1 h
    exact List.lookup_isSome_iff.2 ⟨e, List.mem_reverse.2 he, by simp [hname]⟩
  obtain ⟨a, ha⟩ := Option.isSome_iff_exists.1 hsome
  refine ⟨a, (lookup_ofList key es).trans ha, ?_⟩
  obtain ⟨before, after, heq, -⟩ := List.lookup_eq_some_iff.1 ha
  exact List.mem_reverse.1 (heq ▸ List.mem_append_right before List.mem_cons_self)

end Annotations.Entries
