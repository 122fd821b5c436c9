import Folio.RecordMap

/-!
# Folio.ChildIndex

The declared children of blocks. Parents and children are kept under the dashed spelling of their
ids. The list that was set last for a parent counts.
-/

namespace Folio

/-- Children by parent, the entry that was set last in front. -/
structure ChildIndex where
  entries : List (String × List String)
  dashed_parent : ∀ e ∈ entries, BlockId.dashed e.1 = e.1
  dashed_children : ∀ e ∈ entries, ∀ id ∈ e.2, BlockId.dashed id = id

namespace ChildIndex

def empty : ChildIndex := ⟨[], by simp, by simp⟩

instance : EmptyCollection ChildIndex := ⟨empty⟩

def set (index : ChildIndex) (parent : String) (children : List String) : ChildIndex where
  entries := (BlockId.dashed parent, children.map BlockId.dashed) :: index.entries
  dashed_parent := by
    intro e he
    rcases List.mem_cons.mp he with rfl | he
    · exact BlockId.dashed_dashed parent
    · exact index.dashed_parent e he
  dashed_children := by
    intro e he id hid
    rcases List.mem_cons.mp he with rfl | he
    · obtain ⟨s, -, rfl⟩ := List.mem_map.mp hid
      exact BlockId.dashed_dashed s
    · exact index.dashed_children e he id hid

def childrenOf (index : ChildIndex) (parent : String) : List String :=
  (index.entries.lookup (BlockId.dashed parent)).getD []

theorem dashed_of_mem_childrenOf {index : ChildIndex} {parent id : String}
    (h : id ∈ index.childrenOf parent) : BlockId.dashed id = id := by
  unfold childrenOf at h
  cases hl : index.entries.lookup (BlockId.dashed parent) with
  | none => simp [hl] at h
  | some ids =>
    obtain ⟨before, after, heq, -⟩ := List.lookup_eq_some_iff.mp hl
    have mem : (BlockId.dashed parent, ids) ∈ index.entries := by rw [heq]; simp
    exact index.dashed_children _ mem id (by simpa [hl] using h)

/-- The children that a block declares itself. -/
def setContent (index : ChildIndex) (b : Block) : ChildIndex :=
  match b.content with
  | some children => index.set b.id children
  | none => index

/-- The children that the blocks of a map declare themselves. -/
def ofRecords (m : RecordMap) : ChildIndex :=
  m.blocks.foldl setContent empty

end ChildIndex
end Folio
