import Folio.Html.Page
import Folio.Proofs.Assembly.Simulation
import Folio.Proofs.Block.Spelling
import Folio.Proofs.RecordMap.LastWrite
import Mathlib.Data.List.Find

/-!
# Folio.Proofs.Assembly.Spelling

Ids may be spelled with or without dashes wherever a block holds one. Blocks that are inserted in
order are compared with the same blocks in the dashed spelling.

* `RecordMap.blocks_ofList_dashedIds`, `ChildIndex.childrenOf_dashedIds`: the maps and the indexes of
  both.
* `Assembler.mirrors_dashedIds`: the walks through both do the same.
* `spelling_of_ids_is_free`: blocks that differ in the spelling of ids have the same trees, errors,
  unresolved ids, root candidates and pages.
-/

namespace Folio

namespace RecordMap

theorem id_dashedIds_of_mem {m : RecordMap} {b : Block} (h : b ∈ m.blocks) :
    b.dashedIds.id = b.id :=
  m.dashed_id b h

theorem exchangeIn_dashedIds {b : Block} {blocks : List Block} (hb : b.dashedIds.id = b.id)
    (h : ∀ c ∈ blocks, c.dashedIds.id = c.id) :
    (exchangeIn b.dashedIds (blocks.map Block.dashedIds)).2 =
      (exchangeIn b blocks).2.map Block.dashedIds := by
  induction blocks with
  | nil => rfl
  | cons c rest ih =>
    rw [List.map_cons, exchangeIn, exchangeIn, h c List.mem_cons_self, hb]
    split
    · rfl
    · exact congrArg (c.dashedIds :: ·) (ih fun d hd => h d (List.mem_cons_of_mem c hd))

theorem blocks_ofList_dashedIds (blocks : List Block) :
    (ofList (blocks.map Block.dashedIds)).blocks = (ofList blocks).blocks.map Block.dashedIds := by
  induction blocks using List.reverseRecOn with
  | nil => rfl
  | append_singleton blocks b ih =>
    have hstored : b.stored.dashedIds.id = b.stored.id := by
      rw [Block.id_dashedIds, Block.id_stored, BlockId.dashed_dashed]
    have hrest := exchangeIn_dashedIds hstored fun c hc => id_dashedIds_of_mem (m := ofList blocks) hc
    rw [List.map_append, List.map_singleton, ofList_concat, ofList_concat, blocks_insert,
      blocks_insert, ih]
    exact hrest

theorem get?_dashedIds (blocks : List Block) (id : String) :
    (ofList (blocks.map Block.dashedIds)).get? id =
      ((ofList blocks).get? id).map Block.dashedIds := by
  rw [get?, get?, blocks_ofList_dashedIds, List.find?_map]
  congr 1
  refine List.find?_congr fun b hb => ?_
  rw [Function.comp_apply, id_dashedIds_of_mem hb]

theorem contains_dashedIds (blocks : List Block) (id : String) :
    (ofList (blocks.map Block.dashedIds)).contains id = (ofList blocks).contains id := by
  rw [contains, contains, get?_dashedIds, Option.isSome_map]

theorem isRoot_dashedIds (blocks : List Block) (b : Block) :
    (ofList (blocks.map Block.dashedIds)).isRoot b.dashedIds = (ofList blocks).isRoot b := by
  have hparent : b.dashedIds.parentId.all (!(ofList blocks).contains ·) =
      b.parentId.all (!(ofList blocks).contains ·) := by
    cases hp : b.parentId with
    | none => simp [Block.dashedIds, hp]
    | some p => simp [Block.dashedIds, hp, contains, get?_dashed]
  simp only [isRoot, contains_dashedIds, hparent]
  rfl

theorem rootCandidates_dashedIds (blocks : List Block) :
    (ofList (blocks.map Block.dashedIds)).rootCandidates = (ofList blocks).rootCandidates := by
  have hroots : (ofList (blocks.map Block.dashedIds)).isRoot ∘ Block.dashedIds =
      (ofList blocks).isRoot := funext (isRoot_dashedIds blocks)
  have hids : ((ofList blocks).blocks.filter (ofList blocks).isRoot).map (·.dashedIds.id) =
      ((ofList blocks).blocks.filter (ofList blocks).isRoot).map (·.id) :=
    List.map_congr_left fun b hb => id_dashedIds_of_mem (List.mem_of_mem_filter hb)
  rw [rootCandidates, rootCandidates, blocks_ofList_dashedIds, List.filter_map, hroots,
    List.map_map]
  exact congrArg (·.mergeSort (· ≤ ·)) hids

end RecordMap

theorem ChildIndex.childrenOf_dashedIds (blocks : List Block) (id : String) :
    (ofRecords (.ofList (blocks.map Block.dashedIds))).childrenOf id =
      (ofRecords (.ofList blocks)).childrenOf id := by
  rw [childrenOf_ofRecords, childrenOf_ofRecords, RecordMap.get?_dashedIds]
  cases (RecordMap.ofList blocks).get? id with
  | none => rfl
  | some b => cases hcontent : b.content <;> simp [Block.dashedIds, hcontent, BlockId.dashed_dashed]

namespace Assembler

/-- The assembler of blocks that are inserted in order and declare their children themselves. -/
def ofBlocks (registry : Registry) (policy : MissingChildPolicy) (blocks : List Block) :
    Assembler where
  records := .ofList blocks
  children := .ofRecords (.ofList blocks)
  registry := registry
  policy := policy

variable {registry : Registry} {policy : MissingChildPolicy}

theorem get?_ofBlocks_dashedIds (blocks : List Block) (id : String) :
    (ofBlocks registry policy (blocks.map Block.dashedIds)).records.get? id =
      ((ofBlocks registry policy blocks).records.get? id).map Block.dashedIds :=
  RecordMap.get?_dashedIds blocks id

theorem mirrors_dashedIds (hreg : registry.OfTransformers) (blocks : List Block) :
    Mirrors (ofBlocks registry policy blocks)
      (ofBlocks registry policy (blocks.map Block.dashedIds))
      fun _ b b' => b ∈ (RecordMap.ofList blocks).blocks ∧ b' = b.dashedIds where
  policy := rfl
  id := by
    rintro _ b _ ⟨hb, rfl⟩
    exact RecordMap.id_dashedIds_of_mem hb
  descent := by
    rintro isRoot b _ ⟨hb, rfl⟩
    have hchildren := ChildIndex.childrenOf_dashedIds blocks b.id
    unfold descent
    rw [RecordMap.id_dashedIds_of_mem hb]
    exact congrArg (fun ids => if isRoot || !b.isReference then ids else []) hchildren
  child := by
    intro _ b _ _ id _
    rw [get?_ofBlocks_dashedIds]
    cases hget : (ofBlocks registry policy blocks).records.get? id with
    | none => exact .missing
    | some c =>
      cases hlive : c.isAlive with
      | false => exact .deleted hlive hlive
      | true => exact .alive hlive hlive ⟨RecordMap.mem_of_get? hget, rfl⟩
  node := by
    rintro _ b _ ⟨hb, rfl⟩ children
    have hmade := Block.transform_dashedIds (RecordMap.id_dashedIds_of_mem hb) hreg children
    refine (congrArg _ (congrArg Prod.fst hmade)).trans ?_
    -- both find the target or neither does, and its two blocks have one title
    refine fillAlias_congr fun target _ => ?_
    rw [get?_ofBlocks_dashedIds, Option.map_map]
    rfl
  report := by
    rintro _ b _ ⟨hb, rfl⟩ children
    exact congrArg _ (Block.transform_dashedIds (RecordMap.id_dashedIds_of_mem hb) hreg children)

theorem root_dashedIds (blocks : List Block) (rootId : String) :
    Option.Rel (fun b b' => b ∈ (RecordMap.ofList blocks).blocks ∧ b' = b.dashedIds)
      ((ofBlocks registry policy blocks).records.get? rootId)
      ((ofBlocks registry policy (blocks.map Block.dashedIds)).records.get? rootId) := by
  rw [get?_ofBlocks_dashedIds]
  cases hget : (ofBlocks registry policy blocks).records.get? rootId with
  | none => exact .none
  | some b => exact .some ⟨RecordMap.mem_of_get? hget, rfl⟩

theorem assemble_dashedIds (hreg : registry.OfTransformers) (blocks : List Block)
    (rootId : String) :
    (ofBlocks registry policy (blocks.map Block.dashedIds)).assemble rootId =
      (ofBlocks registry policy blocks).assemble rootId :=
  (mirrors_dashedIds hreg blocks).assemble_eq (root_dashedIds blocks rootId)

theorem unresolvedIds_dashedIds (hreg : registry.OfTransformers) (blocks : List Block)
    (rootId : String) :
    (ofBlocks registry policy (blocks.map Block.dashedIds)).unresolvedIds rootId =
      (ofBlocks registry policy blocks).unresolvedIds rootId :=
  (mirrors_dashedIds hreg blocks).toFollows.unresolvedIds_eq (root_dashedIds blocks rootId)

variable {rootId rootId' : String}

theorem assemble_congr_root (a : Assembler) (h : BlockId.dashed rootId = BlockId.dashed rootId') :
    a.assemble rootId = a.assemble rootId' := by
  have hget := RecordMap.get?_congr a.records h
  cases hget' : a.records.get? rootId' with
  | none =>
    rw [hget'] at hget
    rw [assemble_of_missing hget, assemble_of_missing hget', h]
  | some b =>
    rw [hget'] at hget
    have hmem := RecordMap.mem_of_get? hget'
    rw [assemble_of_get? hget hmem, assemble_of_get? hget' hmem]

theorem unresolvedIds_congr_root (a : Assembler)
    (h : BlockId.dashed rootId = BlockId.dashed rootId') :
    a.unresolvedIds rootId = a.unresolvedIds rootId' := by
  rw [unresolvedIds, unresolvedIds, h]

end Assembler

/-- Wherever a block holds an id, and in the id of a root, it may be spelled with or without dashes.
Blocks that differ in nothing else have the same trees, warnings and errors, the same unresolved
ids, the same root candidates and the same pages. -/
theorem spelling_of_ids_is_free (registry : Registry) (hreg : registry.OfTransformers)
    (policy : MissingChildPolicy) (blocks blocks' : List Block) (rootId rootId' : String)
    (hblocks : blocks.map Block.dashedIds = blocks'.map Block.dashedIds)
    (hroot : BlockId.dashed rootId = BlockId.dashed rootId') :
    let a := Assembler.ofBlocks registry policy blocks
    let a' := Assembler.ofBlocks registry policy blocks'
    a.assemble rootId = a'.assemble rootId' ∧
    a.unresolvedIds rootId = a'.unresolvedIds rootId' ∧
    a.records.rootCandidates = a'.records.rootCandidates ∧
    ∀ renderer : Renderer, (a.assemble rootId).map (renderer.render ·.root) =
      (a'.assemble rootId').map (renderer.render ·.root) := by
  intro a a'
  have htree : a.assemble rootId = a'.assemble rootId' :=
    calc a.assemble rootId
      _ = (Assembler.ofBlocks registry policy (blocks.map Block.dashedIds)).assemble rootId :=
        (Assembler.assemble_dashedIds hreg blocks rootId).symm
      _ = a'.assemble rootId := by rw [hblocks, Assembler.assemble_dashedIds hreg]
      _ = a'.assemble rootId' := Assembler.assemble_congr_root a' hroot
  refine ⟨htree, ?_, ?_, fun renderer => by rw [htree]⟩
  · calc a.unresolvedIds rootId
      _ = (Assembler.ofBlocks registry policy (blocks.map Block.dashedIds)).unresolvedIds rootId :=
        (Assembler.unresolvedIds_dashedIds hreg blocks rootId).symm
      _ = a'.unresolvedIds rootId := by rw [hblocks, Assembler.unresolvedIds_dashedIds hreg]
      _ = a'.unresolvedIds rootId' := Assembler.unresolvedIds_congr_root a' hroot
  · calc (RecordMap.ofList blocks).rootCandidates
      _ = (RecordMap.ofList (blocks.map Block.dashedIds)).rootCandidates :=
        (RecordMap.rootCandidates_dashedIds blocks).symm
      _ = (RecordMap.ofList blocks').rootCandidates := by
        rw [hblocks, RecordMap.rootCandidates_dashedIds]

/-- A page with a page below it and a link to itself, its id spelled in three places. -/
def backLinked (own parent target : String) : List Block :=
  [{ id := own, blockType := "page", content := some ["sub", "back"] },
   { id := "sub", blockType := "page", parentId := some parent },
   { id := "back", blockType := "alias",
     format := some [("alias_pointer", .object [("id", .string target)])] }]

theorem backLinked_spelling_is_free :
    let bare := "0eeee000ccccbbbbaaaa123450000000"
    let dashed := "0eeee000-cccc-bbbb-aaaa-123450000000"
    let a := Assembler.ofBlocks .builtin .fail (backLinked bare dashed bare)
    let a' := Assembler.ofBlocks .builtin .fail (backLinked dashed bare dashed)
    backLinked bare dashed bare ≠ backLinked dashed bare dashed ∧
    a.assemble bare = a'.assemble dashed ∧ a.unresolvedIds bare = a'.unresolvedIds dashed ∧
    a.records.rootCandidates = a'.records.rootCandidates := by
  intro bare dashed a a'
  have hid : BlockId.dashed bare = BlockId.dashed dashed := by decide
  have hblocks : (backLinked bare dashed bare).map Block.dashedIds =
      (backLinked dashed bare dashed).map Block.dashedIds := by
    simp [backLinked, Block.dashedIds, Json.mapAt, Json.dashedPointer, Json.dashedString, hid]
  obtain ⟨htree, hunresolved, hroots, -⟩ :=
    spelling_of_ids_is_free .builtin .builtin .fail _ _ bare dashed hblocks hid
  refine ⟨fun h => ?_, htree, hunresolved, hroots⟩
  have hids := congrArg (List.map (·.id)) h
  revert hids
  decide

end Folio
