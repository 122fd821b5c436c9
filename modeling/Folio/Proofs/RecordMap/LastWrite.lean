import Folio.Proofs.RecordMap.Lookup
import Mathlib.Data.Finset.Card

/-!
# Folio.Proofs.RecordMap.LastWrite

Record maps and child indexes after any number of insertions: under each id stands what was written
last for it, in whichever spelling it was written and is asked for.

* `get?_ofList`, `size_ofList`: the look-ups and the size of a map of blocks that are inserted in
  order.
* `childrenOf_ofLists`: the look-ups of an index of lists that are set in order.
* `childrenOf_ofBlocks`, `childrenOf_ofRecords`: the index that blocks declare themselves does not
  depend on the order in which they are taken.
* `last_write_wins`: all of it together.
-/

namespace Folio

/-- The last block of a list with an id. -/
def Block.lastWith? (blocks : List Block) (id : String) : Option Block :=
  blocks.reverse.find? fun b => BlockId.dashed b.id == BlockId.dashed id

theorem Block.lastWith?_concat (blocks : List Block) (b : Block) (id : String) :
    lastWith? (blocks ++ [b]) id =
      if BlockId.dashed b.id = BlockId.dashed id then some b else lastWith? blocks id := by
  unfold lastWith?
  rw [List.reverse_append, List.reverse_singleton, List.singleton_append, List.find?_cons]
  split <;> simp_all

namespace RecordMap

theorem ofList_concat (blocks : List Block) (b : Block) :
    ofList (blocks ++ [b]) = (ofList blocks).insert b := by
  rw [ofList, List.foldl_append]
  rfl

theorem get?_ofList (blocks : List Block) (id : String) :
    (ofList blocks).get? id = (Block.lastWith? blocks id).map Block.stored := by
  induction blocks using List.reverseRecOn with
  | nil => rfl
  | append_singleton blocks b ih =>
    rw [ofList_concat, get?_insert, Block.lastWith?_concat, ih]
    split <;> rfl

theorem mem_ids_ofList (blocks : List Block) (id : String) :
    id ∈ (ofList blocks).blocks.map (·.id) ↔ id ∈ blocks.map (BlockId.dashed ·.id) := by
  constructor
  · intro h
    obtain ⟨c, hc, rfl⟩ := List.mem_map.mp h
    have hget := get?_of_mem hc
    rw [get?_ofList] at hget
    obtain ⟨b, hlast, rfl⟩ := Option.map_eq_some_iff.mp hget
    exact List.mem_map.mpr ⟨b, List.mem_reverse.mp (List.mem_of_find?_eq_some hlast), rfl⟩
  · intro h
    obtain ⟨b, hb, rfl⟩ := List.mem_map.mp h
    cases hget : (ofList blocks).get? b.id with
    | some c => exact List.mem_map.mpr ⟨c, mem_of_get? hget, id_of_get? hget⟩
    | none =>
      rw [get?_ofList, Option.map_eq_none_iff] at hget
      have := List.find?_eq_none.mp hget b (List.mem_reverse.mpr hb)
      simp at this

theorem size_ofList (blocks : List Block) :
    (ofList blocks).size = (blocks.map (BlockId.dashed ·.id)).toFinset.card := by
  have hids : (blocks.map (BlockId.dashed ·.id)).toFinset =
      ((ofList blocks).blocks.map (·.id)).toFinset := by
    ext id
    rw [List.mem_toFinset, List.mem_toFinset, mem_ids_ofList]
  rw [hids, List.toFinset_card_of_nodup (ofList blocks).nodup_ids, List.length_map]
  rfl

end RecordMap

namespace ChildIndex

/-! ## Lists that are set in order -/

/-- The last list of children that is given for a parent. -/
def lastFor? (lists : List (String × List String)) (parent : String) : Option (List String) :=
  (lists.reverse.find? fun e => BlockId.dashed e.1 == BlockId.dashed parent).map (·.2)

/-- The index of lists that are set in order. -/
def ofLists (lists : List (String × List String)) : ChildIndex :=
  lists.foldl (fun index e => index.set e.1 e.2) empty

theorem childrenOf_ofLists (lists : List (String × List String)) (parent : String) :
    (ofLists lists).childrenOf parent =
      ((lastFor? lists parent).getD []).map BlockId.dashed := by
  induction lists using List.reverseRecOn with
  | nil => rfl
  | append_singleton lists e ih =>
    have hset : ofLists (lists ++ [e]) = (ofLists lists).set e.1 e.2 := by
      rw [ofLists, List.foldl_append]
      rfl
    rw [hset, childrenOf_set, ih, lastFor?, lastFor?, List.reverse_append, List.reverse_singleton,
      List.singleton_append, List.find?_cons]
    by_cases h : BlockId.dashed e.1 = BlockId.dashed parent
    · rw [if_pos h, h, beq_self_eq_true]
      rfl
    · rw [if_neg h, beq_false_of_ne h]

/-! ## Lists that blocks declare themselves -/

/-- The children that blocks declare themselves, the blocks taken in order. -/
def ofBlocks (order : List Block) : ChildIndex :=
  order.foldl setContent empty

theorem childrenOf_setContent (index : ChildIndex) (b : Block) (id : String) :
    (index.setContent b).childrenOf id =
      if BlockId.dashed b.id = BlockId.dashed id then
        (b.content.map (·.map BlockId.dashed)).getD (index.childrenOf id)
      else index.childrenOf id := by
  unfold setContent
  cases hcontent : b.content with
  | none => simp
  | some children => exact childrenOf_set index b.id children id

theorem childrenOf_foldl_of_absent {order : List Block} {id : String}
    (h : ∀ b ∈ order, BlockId.dashed b.id ≠ BlockId.dashed id) (index : ChildIndex) :
    (order.foldl setContent index).childrenOf id = index.childrenOf id := by
  induction order generalizing index with
  | nil => rfl
  | cons b rest ih =>
    rw [List.foldl_cons, ih fun c hc => h c (List.mem_cons_of_mem b hc), childrenOf_setContent,
      if_neg (h b List.mem_cons_self)]

theorem childrenOf_foldl_of_mem {order : List Block} {b : Block} (hb : b ∈ order)
    (hnodup : (order.map (BlockId.dashed ·.id)).Nodup) (index : ChildIndex) :
    (order.foldl setContent index).childrenOf b.id =
      (b.content.map (·.map BlockId.dashed)).getD (index.childrenOf b.id) := by
  induction order generalizing index with
  | nil => cases hb
  | cons c rest ih =>
    obtain ⟨hother, hnodup⟩ := List.nodup_cons.mp hnodup
    have hne : ∀ d ∈ rest, BlockId.dashed d.id ≠ BlockId.dashed c.id :=
      fun d hd h => hother (List.mem_map.mpr ⟨d, hd, h⟩)
    rw [List.foldl_cons]
    rcases List.mem_cons.mp hb with rfl | hb
    · rw [childrenOf_foldl_of_absent hne, childrenOf_setContent, if_pos rfl]
    · rw [ih hb hnodup, childrenOf_setContent, if_neg (hne b hb).symm]

/-- The blocks of a map may be taken in any order. -/
theorem childrenOf_ofBlocks {m : RecordMap} {order : List Block} (horder : order.Perm m.blocks)
    (id : String) :
    (ofBlocks order).childrenOf id =
      (((m.get? id).bind (·.content)).getD []).map BlockId.dashed := by
  cases hget : m.get? id with
  | some b =>
    have hmem : b ∈ order := horder.mem_iff.mpr (RecordMap.mem_of_get? hget)
    -- a map holds its ids in the dashed spelling, so they are distinct in that spelling too
    have hnodup : (order.map (BlockId.dashed ·.id)).Nodup := by
      have hkeys : m.blocks.map (BlockId.dashed ·.id) = m.blocks.map (·.id) :=
        List.map_congr_left m.dashed_id
      rw [(horder.map _).nodup_iff, hkeys]
      exact m.nodup_ids
    have hid : (ofBlocks order).childrenOf id = (ofBlocks order).childrenOf b.id := by
      rw [RecordMap.id_of_get? hget, childrenOf, childrenOf, BlockId.dashed_dashed]
    rw [hid, ofBlocks, childrenOf_foldl_of_mem hmem hnodup]
    cases hcontent : b.content <;> simp [hcontent, childrenOf, empty]
  | none =>
    have habsent : ∀ b ∈ order, BlockId.dashed b.id ≠ BlockId.dashed id := fun b hb =>
      RecordMap.dashed_ne_of_get?_eq_none (horder.mem_iff.mp hb) hget
    rw [ofBlocks, childrenOf_foldl_of_absent habsent]
    rfl

theorem childrenOf_ofRecords (m : RecordMap) (id : String) :
    (ofRecords m).childrenOf id =
      (((m.get? id).bind (·.content)).getD []).map BlockId.dashed :=
  childrenOf_ofBlocks (.refl m.blocks) id

end ChildIndex

/-! ## Both -/

/-- Maps and indexes keep what was written last under each id, whatever the spellings:
* a look-up finds the last block that was inserted with the id, changed in nothing but the spelling
  of its id, and an insertion gives back what a look-up found just before;
* there are as many blocks as ids, and each block is found under its own;
* a look-up of children finds the last list that was set for the parent;
* blocks declare their content as their children, in whatever order the map lists them. -/
theorem last_write_wins (blocks : List Block) (lists : List (String × List String))
    (m : RecordMap) :
    (∀ id, (RecordMap.ofList blocks).get? id = (Block.lastWith? blocks id).map Block.stored) ∧
    (∀ b, (RecordMap.ofList blocks).exchange b =
      ((RecordMap.ofList blocks).get? b.id, RecordMap.ofList (blocks ++ [b]))) ∧
    (RecordMap.ofList blocks).size = (blocks.map (BlockId.dashed ·.id)).toFinset.card ∧
    (∀ b ∈ (RecordMap.ofList blocks).blocks, (RecordMap.ofList blocks).get? b.id = some b) ∧
    (∀ parent, (ChildIndex.ofLists lists).childrenOf parent =
      ((ChildIndex.lastFor? lists parent).getD []).map BlockId.dashed) ∧
    (∀ b ∈ m.blocks,
      (ChildIndex.ofRecords m).childrenOf b.id = (b.content.getD []).map BlockId.dashed) ∧
    (∀ order, order.Perm m.blocks → ∀ id,
      (ChildIndex.ofBlocks order).childrenOf id = (ChildIndex.ofRecords m).childrenOf id) := by
  refine ⟨RecordMap.get?_ofList blocks, fun b => ?_, RecordMap.size_ofList blocks,
    fun b hb => RecordMap.get?_of_mem hb, ChildIndex.childrenOf_ofLists lists, fun b hb => ?_,
    fun order horder id => ?_⟩
  · rw [RecordMap.exchange_eq, RecordMap.ofList_concat]
  · rw [ChildIndex.childrenOf_ofRecords, RecordMap.get?_of_mem hb]
    rfl
  · rw [ChildIndex.childrenOf_ofBlocks horder, ChildIndex.childrenOf_ofRecords]

/-- A block in both spellings of its id, with a page between. -/
def twoSpellings : List Block :=
  [{ id := "0eeee000ccccbbbbaaaa123450000000", blockType := "text" },
   { id := "page", blockType := "page", content := some ["0eeee000ccccbbbbaaaa123450000000"] },
   { id := "0eeee000-cccc-bbbb-aaaa-123450000000", blockType := "toggle" }]

theorem twoSpellings_last_write :
    ((RecordMap.ofList twoSpellings).get? "0eeee000ccccbbbbaaaa123450000000").map (·.blockType) =
      some "toggle" ∧
    (RecordMap.ofList twoSpellings).size = 2 ∧
    ∃ b ∈ (RecordMap.ofList twoSpellings).blocks,
      b.id = "page" ∧ (RecordMap.ofList twoSpellings).get? b.id = some b ∧
      (ChildIndex.ofBlocks (RecordMap.ofList twoSpellings).blocks.reverse).childrenOf b.id =
        ["0eeee000-cccc-bbbb-aaaa-123450000000"] := by
  obtain ⟨hget, -, hsize, hfound, -, hcontent, horder⟩ :=
    last_write_wins twoSpellings [] (RecordMap.ofList twoSpellings)
  refine ⟨?_, ?_, ?_⟩
  · rw [hget]
    decide
  · rw [hsize]
    decide
  · obtain ⟨b, hb, hcontents⟩ : ∃ b, (RecordMap.ofList twoSpellings).get? "page" = some b ∧
        b.content = some ["0eeee000ccccbbbbaaaa123450000000"] := ⟨_, hget "page", rfl⟩
    have hmem := RecordMap.mem_of_get? hb
    refine ⟨b, hmem, RecordMap.id_of_get? hb, hfound b hmem, ?_⟩
    rw [horder _ (List.reverse_perm _), hcontent b hmem, hcontents]
    rfl

end Folio
