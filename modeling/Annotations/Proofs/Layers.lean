import Annotations.Json.Document
import Annotations.Proofs.Numbers
import Annotations.Proofs.Trees

/-!
# The standard layer

What is asked of a layer of JSON holds of the standard one. The tree of every document can be read
(`Doc.legible_json`), since numbers are printed as numbers. So

* **every document is read back** as its tree, also one with floating-point numbers
  (`Doc.read?_write`), where no more is asked than that it is if there are none in it
  (`Json.Layer.readsBack_standard`);
* **texts tell documents apart** (`Json.Layer.tellsApart_standard`): the text determines the tree,
  the tree determines all but the floating-point numbers at once, and a finite number is known from
  its shortest text.
-/

namespace Annotations

namespace Doc

private theorem legible_numberJson {text : Option String}
    (isNumber : ∀ t, text = some t → Token.IsNumber t) : (numberJson text).Legible := by
  cases text with
  | none => exact .null
  | some t => exact .number (isNumber t rfl)

mutual

/-- **The tree of a document can be read.** -/
theorem legible_json : (d : Doc) → d.json.Legible
  | .null => .null
  | .bool b => .bool b
  | .int n => Json.legible_int n
  | .single _ => legible_numberJson fun _ ↦ Precision.isNumber_of_written? Precision.moderate_single
  | .double _ => legible_numberJson fun _ ↦ Precision.isNumber_of_written? Precision.moderate_double
  | .string s => .string s
  | .array ds => .array (legible_elementsJson ds)
  | .object ms => .object (legible_membersJson ms)

private theorem legible_elementsJson : (ds : List Doc) → ∀ j ∈ elementsJson ds, j.Legible
  | [] => fun _ h ↦ (List.not_mem_nil h).elim
  | d :: ds => List.forall_mem_cons.2 ⟨d.legible_json, legible_elementsJson ds⟩

private theorem legible_membersJson :
    (ms : List (String × Doc)) → ∀ m ∈ membersJson ms, m.2.Legible
  | [] => fun _ h ↦ (List.not_mem_nil h).elim
  | (_, d) :: ms => List.forall_mem_cons.2 ⟨d.legible_json, legible_membersJson ms⟩

end

theorem read?_write (d : Doc) : Json.read? d.write = some d.json :=
  Json.read?_write d.legible_json

theorem write_inj {d e : Doc} : d.write = e.write ↔ d.json = e.json := by
  refine ⟨fun same ↦ Option.some.inj ?_, congrArg Json.write⟩
  rw [← read?_write, ← read?_write, same]

end Doc

private theorem Magnitude.exists_written? {m : Magnitude} (p : Precision) (finite : m.IsFinite) :
    ∃ text, m.written? p = some text := by
  obtain ⟨negative, s, e, rfl⟩ := isFinite_iff.1 finite
  exact ⟨_, rfl⟩

private theorem numberJson_inj {a b : Option String} (same : numberJson a = numberJson b) :
    a = b := by
  cases a <;> cases b <;> cases same <;> rfl

namespace Json.Layer

theorem readsBack_standard : standard.ReadsBack :=
  fun d _ _ ↦ d.read?_write

theorem tellsApart_standard : standard.TellsApart where
  bool same := by simpa [Doc.json] using Doc.write_inj.1 same
  int same := by
    have texts := Json.number.inj (Doc.write_inj.1 same)
    exact Option.some.inj (Numeral.int?_toString _ ▸ Numeral.int?_toString _ ▸ congrArg _ texts)
  single {x y} finite same := by
    obtain ⟨text, written⟩ := Magnitude.exists_written? .single finite
    have texts := numberJson_inj (Doc.write_inj.1 same)
    exact Binary32.eq_of_written? written (texts ▸ written)
  double {x y} finite same := by
    obtain ⟨text, written⟩ := Magnitude.exists_written? .double finite
    have texts := numberJson_inj (Doc.write_inj.1 same)
    exact Binary64.eq_of_written? written (texts ▸ written)
  string same := by simpa [Doc.json] using Doc.write_inj.1 same
  array {ds es} same := by
    have trees := Json.array.inj (Doc.write_inj.1 same)
    rw [Doc.elementsJson_eq_map, Doc.elementsJson_eq_map] at trees
    have texts := congrArg (List.map Json.write) trees
    rw [List.map_map, List.map_map] at texts
    exact texts
  object {ms ns} same := by
    have trees := Json.object.inj (Doc.write_inj.1 same)
    rw [Doc.membersJson_eq_map, Doc.membersJson_eq_map] at trees
    have texts := congrArg (List.map fun m ↦ (m.1, m.2.write)) trees
    rw [List.map_map, List.map_map] at texts
    exact texts

end Json.Layer

end Annotations
