import Annotations.Description.Draft

/-!
# Chains of annotations

A stated annotation type of which each annotation holds at most one other, and its finite chains.
-/

namespace Annotations

/-- The type of the links: their only accessor gives links. -/
def nestType : TypeDecl :=
  .ofDrafts "com.example.Nest"
    [⟨"next", .array (.nested "com.example.Nest"), none⟩]

/-- The link that holds the given links. -/
def nestLink (next : List Stated) : Stated :=
  ⟨nestType, [("next", .array (next.map fun s ↦ .nested (.stated s)))]⟩

/-- A chain of `n + 1` links; the last one holds no other. -/
def nestChain : Nat → Stated
  | 0 => nestLink []
  | n + 1 => nestLink [nestChain n]

/-- Links are what a draft of their type builds. -/
theorem of_nestType (next : List Stated) (h : ∀ s ∈ next, s.type.name = "com.example.Nest") :
    Stated.of nestType [("next", .array (next.map fun s ↦ .nested (.stated s)))] =
      .ok (nestLink next) := by
  have conforms : (Value.array (next.map fun s ↦ .nested (.stated s))).conforms
      (.array (.nested "com.example.Nest")) = true := by
    simpa [Value.conforms, Description.typeName, Description.type] using h
  simp [Stated.of, Draft.defineAll, Draft.empty, Draft.define, nestType, TypeDecl.ofDrafts,
    AccessorDraft.on, TypeDecl.accessor?, Accessor.name, Accessor.handle, Handle.name,
    Accessor.kind, Handle.kind, Value.checked, conforms, Entries.set, Draft.build,
    TypeDecl.isAnnotationType, Draft.complete, nestLink, Except.map, bind, Except.bind,
    pure, Except.pure]

end Annotations
