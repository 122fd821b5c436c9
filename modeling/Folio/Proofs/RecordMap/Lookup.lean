import Folio.ChildIndex
import Mathlib.Data.List.Nodup

/-!
# Folio.Proofs.RecordMap.Lookup

Look-ups in record maps and child indexes, before and after one more entry.

* `get?_of_mem`, `eq_of_id_eq`, `get?_dashed`: blocks of a map are told apart by their ids, and each
  is found under its own one in any spelling.
* `exchange_eq`: what is given back by an insertion is what a look-up gave before it.
* `get?_insert`, `childrenOf_set`: an insertion shows under its own id only.
-/

namespace Folio

/-- A block as a map holds it. -/
def Block.stored (b : Block) : Block :=
  { b with id := BlockId.dashed b.id }

@[simp] theorem Block.id_stored (b : Block) : b.stored.id = BlockId.dashed b.id := rfl

theorem fst_exchangeIn (b : Block) (blocks : List Block) :
    (exchangeIn b blocks).1 = blocks.find? (·.id == b.id) := by
  induction blocks with
  | nil => rfl
  | cons c rest ih =>
    unfold exchangeIn
    by_cases hid : c.id = b.id
    · rw [if_pos hid, List.find?_cons_of_pos (by simpa using hid)]
    · rw [if_neg hid, List.find?_cons_of_neg (by simpa using hid)]
      exact ih

theorem find?_exchangeIn (b : Block) (blocks : List Block) (id : String) :
    (exchangeIn b blocks).2.find? (·.id == id) =
      if b.id = id then some b else blocks.find? (·.id == id) := by
  induction blocks with
  | nil => simp [exchangeIn]
  | cons c rest ih =>
    unfold exchangeIn
    by_cases hid : c.id = b.id
    · rw [if_pos hid]
      by_cases hb : b.id = id
      · rw [if_pos hb, List.find?_cons_of_pos (by simpa using hb)]
      · rw [if_neg hb, List.find?_cons_of_neg (by simpa using hb),
          List.find?_cons_of_neg (by simpa [hid] using hb)]
    · rw [if_neg hid]
      by_cases hc : c.id = id
      · rw [List.find?_cons_of_pos (by simpa using hc), if_neg fun hb => hid (hc.trans hb.symm),
          List.find?_cons_of_pos (by simpa using hc)]
      · rw [List.find?_cons_of_neg (by simpa using hc), List.find?_cons_of_neg (by simpa using hc)]
        exact ih

namespace RecordMap

variable {m : RecordMap} {b c : Block}

theorem get?_of_mem (h : b ∈ m.blocks) : m.get? b.id = some b := by
  unfold get?
  rw [m.dashed_id b h]
  cases hf : m.blocks.find? (·.id == b.id) with
  | none =>
    have := List.find?_eq_none.mp hf b h
    simp at this
  | some c =>
    have hid : c.id = b.id := by simpa using List.find?_some hf
    rw [List.inj_on_of_nodup_map m.nodup_ids (List.mem_of_find?_eq_some hf) h hid]

theorem eq_of_id_eq (hb : b ∈ m.blocks) (hc : c ∈ m.blocks) (h : b.id = c.id) : b = c :=
  List.inj_on_of_nodup_map m.nodup_ids hb hc h

theorem get?_dashed (m : RecordMap) (id : String) : m.get? (BlockId.dashed id) = m.get? id := by
  unfold get?
  rw [BlockId.dashed_dashed]

theorem get?_congr (m : RecordMap) {id id' : String} (h : BlockId.dashed id = BlockId.dashed id') :
    m.get? id = m.get? id' := by
  unfold get?
  rw [h]

theorem blocks_insert (m : RecordMap) (b : Block) :
    (m.insert b).blocks = (exchangeIn b.stored m.blocks).2 := rfl

theorem get?_of_dashed_eq {id : String} (hb : b ∈ m.blocks)
    (h : BlockId.dashed b.id = BlockId.dashed id) : m.get? id = some b :=
  (get?_congr m h).symm.trans (get?_of_mem hb)

theorem dashed_ne_of_get?_eq_none {id : String} (hb : b ∈ m.blocks) (hget : m.get? id = none) :
    BlockId.dashed b.id ≠ BlockId.dashed id := by
  intro h
  rw [get?_of_dashed_eq hb h] at hget
  cases hget

/-- An insertion gives back what was found before it. -/
theorem exchange_eq (m : RecordMap) (b : Block) : m.exchange b = (m.get? b.id, m.insert b) :=
  Prod.ext (fst_exchangeIn b.stored m.blocks) rfl

/-- An inserted block is found under its id in any spelling, and all other look-ups stay. -/
theorem get?_insert (m : RecordMap) (b : Block) (id : String) :
    (m.insert b).get? id =
      if BlockId.dashed b.id = BlockId.dashed id then some b.stored else m.get? id :=
  find?_exchangeIn b.stored m.blocks (BlockId.dashed id)

theorem get?_insert_self {id : String} (h : BlockId.dashed b.id = BlockId.dashed id) :
    (m.insert b).get? id = some b.stored := by
  rw [get?_insert, if_pos h]

theorem get?_insert_of_ne {id : String} (h : BlockId.dashed b.id ≠ BlockId.dashed id) :
    (m.insert b).get? id = m.get? id := by
  rw [get?_insert, if_neg h]

end RecordMap

namespace ChildIndex

/-- A list of children that is set shows under its parent in any spelling, and all other lists
stay. -/
theorem childrenOf_set (index : ChildIndex) (parent : String) (children : List String)
    (id : String) :
    (index.set parent children).childrenOf id =
      if BlockId.dashed parent = BlockId.dashed id then children.map BlockId.dashed
      else index.childrenOf id := by
  unfold childrenOf set
  rw [List.lookup_cons]
  by_cases h : BlockId.dashed parent = BlockId.dashed id
  · rw [if_pos h, h, beq_self_eq_true]
    rfl
  · rw [if_neg h, beq_false_of_ne (Ne.symm h)]

end ChildIndex
end Folio
