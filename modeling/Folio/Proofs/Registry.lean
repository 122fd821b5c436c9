import Folio.Registry

/-!
# Folio.Proofs.Registry

Registries of transformers. Whatever was registered for a block type, its node stands for the block
and has the grouped children.
-/

namespace Folio
namespace Registry

/-- The registries that come of the two there are by registering transformers. -/
inductive OfTransformers : Registry → Prop where
  | builtin : OfTransformers .builtin
  | empty : OfTransformers .empty
  | register {r : Registry} (h : OfTransformers r) (tag : String) (t : Transformer) :
      OfTransformers (r.register tag t.node)

theorem OfTransformers.exists_of_mem {r : Registry} (h : r.OfTransformers) :
    ∀ e ∈ r.entries, ∃ t : Transformer, e.2 = t.node := by
  induction h with
  | builtin =>
    intro e he
    obtain ⟨⟨tag, t⟩, -, rfl⟩ := List.mem_map.mp he
    exact ⟨t, rfl⟩
  | empty =>
    intro e he
    cases he
  | register _ tag t ih =>
    intro e he
    rcases List.mem_cons.mp he with rfl | he
    · exact ⟨t, rfl⟩
    · exact ih e he

theorem OfTransformers.exists_of_find? {r : Registry} (h : r.OfTransformers) {tag : String}
    {make : NodeMaker} (hfind : r.find? tag = some make) : ∃ t : Transformer, make = t.node := by
  obtain ⟨before, after, heq, -⟩ := List.lookup_eq_some_iff.mp hfind
  have hmem : (tag, make) ∈ r.entries := by rw [heq]; simp
  exact h.exists_of_mem _ hmem

theorem OfTransformers.exists_transform {r : Registry} (h : r.OfTransformers) (b : Block)
    (children : List Node) :
    ∃ t : Transformer, (r.transform b children).1 = t.node b (Node.groupItems children) := by
  unfold transform
  cases hfind : r.find? b.blockType with
  | none => exact ⟨.unsupported, rfl⟩
  | some make =>
    obtain ⟨t, rfl⟩ := h.exists_of_find? hfind
    exact ⟨t, rfl⟩

end Registry
end Folio
