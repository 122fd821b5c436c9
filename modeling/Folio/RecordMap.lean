import Folio.Block
import Folio.BlockId

/-!
# Folio.RecordMap

Blocks keyed by id. The map holds at most one block for each id, and holds it under the dashed
spelling of the id; look-ups take either spelling.

* `RecordMap.exchange`: inserts a block and gives back the one it replaces.
* `RecordMap.get?`: look-up.
* `RecordMap.rootCandidates`: the pages that no other block of the map contains.
-/

namespace Folio

namespace BlockId

theorem isDashed_group {cs : List Char} (h : cs.length = 32) :
    isDashed (String.ofList (group cs)) = true := by
  simp [isDashed, group, h]

/-- The dashed spelling is a fixed point. -/
theorem dashed_dashed (s : String) : dashed (dashed s) = dashed s := by
  by_cases hd : isDashed s = true
  · simp [dashed, hd]
  · by_cases hb : isBare (undashed s).toList = true
    · have hlen : (undashed s).toList.length = 32 := by
        simp only [isBare, Bool.and_eq_true, beq_iff_eq] at hb
        exact hb.1
      have hs : dashed s = String.ofList (group (undashed s).toList) := by
        simp [dashed, hd, hb]
      rw [hs, dashed, if_pos (isDashed_group hlen)]
    · simp [dashed, hd, hb]

end BlockId

/-- Puts a block in place of the one with its id, or at the end, and gives back the replaced one. -/
def exchangeIn (b : Block) : List Block → Option Block × List Block
  | [] => (none, [b])
  | c :: rest =>
    if c.id = b.id then (some c, b :: rest)
    else
      let (old, rest) := exchangeIn b rest
      (old, c :: rest)

theorem mem_exchangeIn {b x : Block} {blocks : List Block} (h : x ∈ (exchangeIn b blocks).2) :
    x = b ∨ x ∈ blocks := by
  induction blocks with
  | nil => simpa [exchangeIn] using h
  | cons c rest ih =>
    unfold exchangeIn at h
    split at h <;> simp only [List.mem_cons] at h ⊢
    · rcases h with h | h
      · exact .inl h
      · exact .inr (.inr h)
    · rcases h with h | h
      · exact .inr (.inl h)
      · exact (ih h).imp id .inr

theorem nodup_exchangeIn (b : Block) {blocks : List Block} (h : (blocks.map (·.id)).Nodup) :
    ((exchangeIn b blocks).2.map (·.id)).Nodup := by
  induction blocks with
  | nil => simp [exchangeIn]
  | cons c rest ih =>
    simp only [List.map_cons, List.nodup_cons] at h
    unfold exchangeIn
    split
    · rename_i hid
      simp only [List.map_cons, List.nodup_cons, ← hid]
      exact h
    · rename_i hid
      simp only [List.map_cons, List.nodup_cons]
      refine ⟨fun hmem => ?_, ih h.2⟩
      obtain ⟨x, hx, hxid⟩ := List.mem_map.mp hmem
      rcases mem_exchangeIn hx with rfl | hx
      · exact hid hxid.symm
      · exact h.1 (List.mem_map.mpr ⟨x, hx, hxid⟩)

/-- Blocks keyed by the dashed spelling of their ids. -/
structure RecordMap where
  blocks : List Block
  dashed_id : ∀ b ∈ blocks, BlockId.dashed b.id = b.id
  nodup_ids : (blocks.map (·.id)).Nodup

namespace RecordMap

def empty : RecordMap := ⟨[], by simp, by simp⟩

/-- Inserts a block under the dashed spelling of its id, and gives back the one that was there. -/
def exchange (m : RecordMap) (b : Block) : Option Block × RecordMap :=
  let b := { b with id := BlockId.dashed b.id }
  ((exchangeIn b m.blocks).1,
    { blocks := (exchangeIn b m.blocks).2
      dashed_id := by
        intro x hx
        rcases mem_exchangeIn hx with rfl | hx
        · exact BlockId.dashed_dashed _
        · exact m.dashed_id x hx
      nodup_ids := nodup_exchangeIn b m.nodup_ids })

/-- Inserts a block in place of any block with the same id. -/
def insert (m : RecordMap) (b : Block) : RecordMap :=
  (m.exchange b).2

def ofList (blocks : List Block) : RecordMap :=
  blocks.foldl insert empty

/-- The block of an id in either spelling. -/
def get? (m : RecordMap) (id : String) : Option Block :=
  m.blocks.find? (·.id == BlockId.dashed id)

def contains (m : RecordMap) (id : String) : Bool :=
  (m.get? id).isSome

def size (m : RecordMap) : Nat :=
  m.blocks.length

/-- The ids of all blocks in ascending order. -/
def ids (m : RecordMap) : List String :=
  (m.blocks.map (·.id)).mergeSort (· ≤ ·)

/-- A page whose parent is not in the map. -/
def isRoot (m : RecordMap) (b : Block) : Bool :=
  b.blockType == "page" && b.parentId.all (!m.contains ·)

/-- The ids of the pages whose parent is not in the map, in ascending order. -/
def rootCandidates (m : RecordMap) : List String :=
  ((m.blocks.filter m.isRoot).map (·.id)).mergeSort (· ≤ ·)

theorem mem_of_get? {m : RecordMap} {id : String} {b : Block} (h : m.get? id = some b) :
    b ∈ m.blocks :=
  List.mem_of_find?_eq_some h

theorem id_of_get? {m : RecordMap} {id : String} {b : Block} (h : m.get? id = some b) :
    b.id = BlockId.dashed id := by
  simpa using List.find?_some h

end RecordMap
end Folio
