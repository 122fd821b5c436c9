import Folio.Proofs.RecordMap.Reordering
import Folio.Proofs.Text.Order

/-!
# Folio.Proofs.RecordMap.RootCandidates

The pages that no other block of a map contains. Whether a page is one of them depends on what is
*not* in the map, so that one more block can take several of them away.

* `mem_rootCandidates_iff`, `isRoot_iff`: which ids are candidates.
* `pairwise_rootCandidates`, `rootCandidates_congr`: they are in ascending order, and the look-ups of
  a map determine them.
* `get?_ofList_reordered`: blocks of distinct ids can be inserted in any order, whatever was inserted
  before or comes after.
* `rootCandidates_follow_insertions`: all of it, and what one new block changes.
-/

namespace Folio

/-! ## Insertions in another order -/

theorem Block.lastWith?_append (xs ys : List Block) (id : String) :
    lastWith? (xs ++ ys) id = (lastWith? ys id).or (lastWith? xs id) := by
  unfold lastWith?
  rw [List.reverse_append, List.find?_append]

namespace RecordMap

theorem get?_ofList_append (xs ys : List Block) (id : String) :
    (ofList (xs ++ ys)).get? id = ((ofList ys).get? id).or ((ofList xs).get? id) := by
  rw [get?_ofList, get?_ofList, get?_ofList, Block.lastWith?_append, Option.map_or]

theorem get?_ofList_reordered {blocks blocks' : List Block}
    (h : (blocks.map (BlockId.dashed ·.id)).Nodup) (hperm : blocks.Perm blocks')
    (before after : List Block) (id : String) :
    (ofList (before ++ blocks ++ after)).get? id =
      (ofList (before ++ blocks' ++ after)).get? id := by
  rw [get?_ofList_append, get?_ofList_append, get?_ofList_append, get?_ofList_append,
    get?_ofList_perm (unambiguous_of_nodup h) hperm]

/-! ## Candidates -/

variable {m : RecordMap} {b : Block} {id : String}

theorem isRoot_iff : m.isRoot b = true ↔
    b.blockType = "page" ∧ ∀ p, b.parentId = some p → m.get? p = none := by
  unfold isRoot contains
  cases b.parentId with
  | none => simp
  | some p => simp

theorem mem_rootCandidates_iff : id ∈ m.rootCandidates ↔
    ∃ b, m.get? id = some b ∧ b.id = id ∧ m.isRoot b = true := by
  rw [rootCandidates, List.mem_mergeSort, List.mem_map]
  constructor
  · rintro ⟨b, hb, rfl⟩
    obtain ⟨hmem, hroot⟩ := List.mem_filter.mp hb
    exact ⟨b, get?_of_mem hmem, rfl, hroot⟩
  · rintro ⟨b, hget, hid, hroot⟩
    exact ⟨b, List.mem_filter.mpr ⟨mem_of_get? hget, hroot⟩, hid⟩

theorem pairwise_rootCandidates (m : RecordMap) : m.rootCandidates.Pairwise (· < ·) := by
  refine Text.pairwise_mergeSort ?_
  exact (List.filter_sublist.map Block.id).nodup m.nodup_ids

/-- Maps with the same look-ups have the same candidates. -/
theorem rootCandidates_congr {m m' : RecordMap} (h : ∀ id, m.get? id = m'.get? id) :
    m.rootCandidates = m'.rootCandidates := by
  refine Text.eq_of_pairwise_lt m.pairwise_rootCandidates m'.pairwise_rootCandidates fun id => ?_
  simp only [mem_rootCandidates_iff, isRoot_iff, h]

/-! ## One more block -/

/-- The block of an id names a block as its parent, in either spelling. -/
def HasParent (m : RecordMap) (id parent : String) : Prop :=
  ∃ c p, m.get? id = some c ∧ c.parentId = some p ∧ BlockId.dashed p = BlockId.dashed parent

theorem get?_insert_eq_none_iff :
    (m.insert b).get? id = none ↔ BlockId.dashed id ≠ BlockId.dashed b.id ∧ m.get? id = none := by
  rw [get?_insert]
  by_cases h : BlockId.dashed b.id = BlockId.dashed id
  · simp [h]
  · simp [h, Ne.symm h]

theorem isRoot_insert_iff {c : Block} : (m.insert b).isRoot c = true ↔
    m.isRoot c = true ∧ ∀ p, c.parentId = some p → BlockId.dashed p ≠ BlockId.dashed b.id := by
  simp only [isRoot_iff, get?_insert_eq_none_iff]
  constructor
  · rintro ⟨hpage, hparent⟩
    exact ⟨⟨hpage, fun p hp => (hparent p hp).2⟩, fun p hp => (hparent p hp).1⟩
  · rintro ⟨⟨hpage, hnone⟩, hother⟩
    exact ⟨hpage, fun p hp => ⟨hother p hp, hnone p hp⟩⟩

/-- A block that comes in takes away the candidates that it is the parent of. -/
theorem mem_rootCandidates_insert_of_ne (hne : id ≠ BlockId.dashed b.id) :
    id ∈ (m.insert b).rootCandidates ↔ id ∈ m.rootCandidates ∧ ¬ m.HasParent id b.id := by
  have hget (hdashed : BlockId.dashed id = id) : (m.insert b).get? id = m.get? id :=
    get?_insert_of_ne fun h => hne (hdashed.symm.trans h.symm)
  simp only [mem_rootCandidates_iff, isRoot_insert_iff]
  constructor
  · rintro ⟨c, hc, hid, hroot, hother⟩
    have hc' := (hget ((id_of_get? hc).symm.trans hid)).symm.trans hc
    refine ⟨⟨c, hc', hid, hroot⟩, ?_⟩
    rintro ⟨d, p, hd, hp, hdenotes⟩
    obtain rfl : c = d := Option.some.inj (hc'.symm.trans hd)
    exact hother p hp hdenotes
  · rintro ⟨⟨c, hc, hid, hroot⟩, hparent⟩
    have hc' := (hget ((id_of_get? hc).symm.trans hid)).trans hc
    exact ⟨c, hc', hid, hroot, fun p hp hdenotes => hparent ⟨c, p, hc, hp, hdenotes⟩⟩

theorem mem_rootCandidates_insert_self : BlockId.dashed b.id ∈ (m.insert b).rootCandidates ↔
    b.blockType = "page" ∧ ∀ p, b.parentId = some p → (m.insert b).get? p = none := by
  have hget : (m.insert b).get? (BlockId.dashed b.id) = some b.stored :=
    get?_insert_self (BlockId.dashed_dashed b.id).symm
  rw [mem_rootCandidates_iff]
  constructor
  · rintro ⟨c, hc, -, hroot⟩
    obtain rfl : b.stored = c := Option.some.inj (hget.symm.trans hc)
    exact isRoot_iff.mp hroot
  · intro h
    exact ⟨b.stored, hget, rfl, isRoot_iff.mpr h⟩

theorem notMem_rootCandidates (hnew : m.get? b.id = none) :
    BlockId.dashed b.id ∉ m.rootCandidates := by
  intro hmem
  obtain ⟨c, hc, -⟩ := mem_rootCandidates_iff.mp hmem
  rw [get?_dashed, hnew] at hc
  cases hc

/-- The candidates of a map follow its blocks, in ascending order of their bytes:
* blocks of distinct ids can be inserted in any order, whatever was inserted before or comes after;
* a block with a new id takes away just the candidates that name it as their parent, in either
  spelling, and adds nothing but itself;
* it is a candidate iff it is a page without a parent, or with one that the map does not hold even
  with the new block. -/
theorem rootCandidates_follow_insertions :
    (∀ m : RecordMap, m.rootCandidates.Pairwise fun s t => Text.bytes s < Text.bytes t) ∧
    (∀ before blocks blocks' after : List Block,
      (blocks.map (BlockId.dashed ·.id)).Nodup → blocks.Perm blocks' →
      (ofList (before ++ blocks ++ after)).rootCandidates =
        (ofList (before ++ blocks' ++ after)).rootCandidates) ∧
    ∀ (m : RecordMap) (b : Block), m.get? b.id = none →
      (∀ id ∈ m.rootCandidates,
        id ∈ (m.insert b).rootCandidates ↔ ¬ m.HasParent id b.id) ∧
      (∀ id ∈ (m.insert b).rootCandidates, id ∈ m.rootCandidates ∨ id = BlockId.dashed b.id) ∧
      (BlockId.dashed b.id ∈ (m.insert b).rootCandidates ↔
        b.blockType = "page" ∧ ∀ p, b.parentId = some p → (m.insert b).get? p = none) := by
  refine ⟨fun m => m.pairwise_rootCandidates.imp Text.lt_iff_bytes_lt.mp,
    fun before blocks blocks' after hnodup hperm =>
      rootCandidates_congr (get?_ofList_reordered hnodup hperm before after),
    fun m b hnew => ⟨fun id hid => ?_, fun id hid => ?_, mem_rootCandidates_insert_self⟩⟩
  · have hne : id ≠ BlockId.dashed b.id := fun h => notMem_rootCandidates hnew (h ▸ hid)
    rw [mem_rootCandidates_insert_of_ne hne, and_iff_right hid]
  · by_cases hne : id = BlockId.dashed b.id
    · exact .inr hne
    · exact .inl ((mem_rootCandidates_insert_of_ne hne).mp hid).1

/-- A preface, and a chapter of a book that is not there yet. -/
def chapters : List Block :=
  [{ id := "preface", blockType := "page" },
   { id := "chapter", blockType := "page", parentId := some "0eeee000ccccbbbbaaaa123450000000" }]

/-- The book, which claims to lie in itself. -/
def book : Block :=
  { id := "0eeee000-cccc-bbbb-aaaa-123450000000", blockType := "page",
    parentId := some "0eeee000ccccbbbbaaaa123450000000" }

theorem chapters_follow_book :
    (ofList (chapters.reverse ++ [book])).rootCandidates =
      (ofList (chapters ++ [book])).rootCandidates ∧
    (ofList chapters).get? book.id = none ∧
    "chapter" ∈ (ofList chapters).rootCandidates ∧
    "chapter" ∉ ((ofList chapters).insert book).rootCandidates ∧
    "preface" ∈ ((ofList chapters).insert book).rootCandidates ∧
    book.id ∉ ((ofList chapters).insert book).rootCandidates := by
  obtain ⟨-, hreorder, hinsert⟩ := rootCandidates_follow_insertions
  have hnew : (ofList chapters).get? book.id = none := by decide
  have hpreface : "preface" ∈ (ofList chapters).rootCandidates :=
    mem_rootCandidates_iff.mpr ⟨_, rfl, rfl, by decide⟩
  have hchapter : "chapter" ∈ (ofList chapters).rootCandidates :=
    mem_rootCandidates_iff.mpr ⟨_, rfl, rfl, by decide⟩
  obtain ⟨hold, -, hself⟩ := hinsert (ofList chapters) book hnew
  refine ⟨?_, hnew, hchapter, ?_, ?_, ?_⟩
  · exact hreorder [] chapters.reverse chapters [book] (by decide) (List.reverse_perm chapters)
  · rw [hold "chapter" hchapter, not_not]
    exact ⟨_, _, rfl, rfl, by decide⟩
  · refine (hold "preface" hpreface).mpr ?_
    rintro ⟨c, p, hc, hp, -⟩
    obtain rfl : chapters.head (by decide) = c := Option.some.inj hc
    cases hp
  · intro hmem
    obtain ⟨-, hnone⟩ := hself.mp hmem
    exact absurd (hnone _ rfl) (by decide)

end RecordMap
end Folio
