import Folio.Proofs.Assembly.Reach
import Folio.Proofs.Assembly.Simulation

/-!
# Folio.Proofs.Assembly.Locality

Which records and children a tree depends on. Only what lies on the way from the root is read, and
what the aliases on the way point at.

* `SameOnWay`: two assemblers have the same on the way from a root.
* `SameOnWay.mirrors`: their walks then do the same.
* `OffWay`: the changes that touch nothing on the way.
* `assemble_reads_only_the_way`: no number of them shows.
-/

namespace Folio

namespace Assembler

open Relation

/-- An alias on the way from a root points at an id and has no title of its own. -/
def PointsAt (a : Assembler) (rootId id : String) : Prop :=
  ∃ b children target, a.Reaches rootId b ∧
    (a.registry.transform b children).1.kind = .aliasOf target [] ∧ BlockId.dashed target = id

/-- The walk from a root goes on with the children of an id. -/
def GoesInto (a : Assembler) (rootId id : String) : Prop :=
  ∃ b, a.records.get? id = some b ∧ a.Reaches rootId b ∧ Opens rootId b

/-- Two assemblers have the same on the way from a root. For an id that is looked up there, a deleted
block may stand in one and another deleted block in the other. -/
structure SameOnWay (a a' : Assembler) (rootId : String) : Prop where
  registry : a'.registry = a.registry
  policy : a'.policy = a.policy
  root : a'.records.get? rootId = a.records.get? rootId
  lookUp : ∀ id, a.LooksUp rootId id →
    Alike (fun c c' => c' = c) (a.records.get? id) (a'.records.get? id)
  target : ∀ id, a.PointsAt rootId id → a'.records.get? id = a.records.get? id
  children : ∀ b, a.Reaches rootId b → Opens rootId b →
    a'.children.childrenOf b.id = a.children.childrenOf b.id

variable {a a' : Assembler} {rootId id : String} {b : Block}

theorem not_goesInto (hother : BlockId.dashed id ≠ BlockId.dashed rootId)
    (h : ∀ b, a.records.get? id = some b → b.isAlive = false ∨ b.isReference = true) :
    ¬ a.GoesInto rootId id := by
  rintro ⟨b, hget, hreach, hopen⟩
  have hid : b.id ≠ BlockId.dashed rootId := RecordMap.id_of_get? hget ▸ hother
  have hlive := hreach.root_or_alive.resolve_left hid
  have hown := hopen.resolve_left hid
  rcases h b hget with hdead | href
  · rw [hlive] at hdead
    cases hdead
  · rw [hown] at href
    cases href

theorem PointsAt.dashed_eq (h : a.PointsAt rootId id) : BlockId.dashed id = id := by
  obtain ⟨_, _, target, _, _, rfl⟩ := h
  exact BlockId.dashed_dashed target

theorem dashed_ne_of_not {p : String → Prop} {s : String} (hid : p id)
    (hdashed : BlockId.dashed id = id) (hs : ¬ p (BlockId.dashed s)) :
    BlockId.dashed s ≠ BlockId.dashed id := by
  intro heq
  rw [heq, hdashed] at hs
  exact hs hid

namespace SameOnWay

theorem descent_eq (h : SameOnWay a a' rootId) {isRoot : Bool} (hb : a.Reaches rootId b)
    (hroot : isRoot = true → b.id = BlockId.dashed rootId) :
    a'.descent isRoot b = a.descent isRoot b := by
  unfold descent
  split
  · rename_i hflag
    exact h.children b hb (opens_of_flag hroot hflag)
  · rfl

theorem mirrors (h : SameOnWay a a' rootId) :
    Mirrors a a' fun isRoot b b' =>
      b' = b ∧ a.Reaches rootId b ∧ (isRoot = true → b.id = BlockId.dashed rootId) where
  policy := h.policy
  id := by
    rintro isRoot b _ ⟨rfl, -⟩
    rfl
  descent := by
    rintro isRoot b _ ⟨rfl, hb, hroot⟩
    exact h.descent_eq hb hroot
  child := by
    rintro isRoot b _ ⟨rfl, hb, hroot⟩ id hid
    have hlook := hb.looksUp hroot hid
    have halike := h.lookUp id hlook
    generalize hget : a.records.get? id = found at halike
    generalize a'.records.get? id = found' at halike
    cases halike with
    | missing => exact .missing
    | deleted hc hc' => exact .deleted hc hc'
    | alive hc hc' hsame => exact .alive hc hc' ⟨hsame, hlook.reaches hget hc, fun hf => nomatch hf⟩
  node := by
    rintro isRoot b _ ⟨rfl, hb, -⟩ children
    rw [h.registry]
    -- an alias without a title reads one record more, that of its target
    refine fillAlias_congr fun target hkind => ?_
    have hpoint := h.target _ ⟨_, children, target, hb, hkind, rfl⟩
    rw [RecordMap.get?_dashed, RecordMap.get?_dashed] at hpoint
    rw [hpoint]
  report := by
    rintro isRoot b _ ⟨rfl, -⟩ children
    rw [h.registry]

theorem root_rel (h : SameOnWay a a' rootId) :
    Option.Rel (fun b b' => b' = b ∧ a.Reaches rootId b ∧ (true = true → b.id = BlockId.dashed rootId))
      (a.records.get? rootId) (a'.records.get? rootId) := by
  rw [h.root]
  cases hget : a.records.get? rootId with
  | none => exact .none
  | some b => exact .some ⟨rfl, reaches_root hget, fun _ => RecordMap.id_of_get? hget⟩

end SameOnWay

/-! ## Changes -/

/-- The changes that touch nothing on the way from a root. -/
inductive OffWay (rootId : String) : Assembler → Assembler → Prop where
  /-- A block comes in, or in place of another one, whose id is neither looked up nor pointed at. -/
  | insert {a : Assembler} (b : Block) (hlook : ¬ a.LooksUp rootId (BlockId.dashed b.id))
      (hpoint : ¬ a.PointsAt rootId (BlockId.dashed b.id)) :
      OffWay rootId a { a with records := a.records.insert b }
  /-- A deleted block comes in place of a deleted block that is neither the root nor pointed at. -/
  | redelete {a : Assembler} (old b : Block) (hget : a.records.get? b.id = some old)
      (hold : old.isAlive = false) (hnew : b.isAlive = false)
      (hroot : BlockId.dashed b.id ≠ BlockId.dashed rootId)
      (hpoint : ¬ a.PointsAt rootId (BlockId.dashed b.id)) :
      OffWay rootId a { a with records := a.records.insert b }
  /-- The children of an id change that the walk does not go into. -/
  | setChildren {a : Assembler} (id : String) (children : List String)
      (hinto : ¬ a.GoesInto rootId id) :
      OffWay rootId a { a with children := a.children.set id children }

theorem OffWay.sameOnWay (h : OffWay rootId a a') : SameOnWay a a' rootId := by
  cases h with
  | insert b hlook hpoint =>
    have hroot : BlockId.dashed b.id ≠ BlockId.dashed rootId := fun heq => hlook (.inl heq)
    exact
      { registry := rfl
        policy := rfl
        root := RecordMap.get?_insert_of_ne hroot
        lookUp := fun id hid =>
          .of_eq (RecordMap.get?_insert_of_ne (dashed_ne_of_not hid hid.dashed_eq hlook))
            fun _ _ _ => rfl
        target := fun id hid =>
          RecordMap.get?_insert_of_ne (dashed_ne_of_not hid hid.dashed_eq hpoint)
        children := fun _ _ _ => rfl }
  | redelete old b hget hold hnew hroot hpoint =>
    exact
      { registry := rfl
        policy := rfl
        root := RecordMap.get?_insert_of_ne hroot
        lookUp := fun id hid => by
          by_cases heq : BlockId.dashed b.id = BlockId.dashed id
          · have hfound : (a.records.insert b).get? id = some b.stored := RecordMap.get?_insert_self heq
            rw [← RecordMap.get?_congr a.records heq, hget]
            exact hfound ▸ .deleted hold hnew
          · exact .of_eq (RecordMap.get?_insert_of_ne heq) fun _ _ _ => rfl
        target := fun id hid =>
          RecordMap.get?_insert_of_ne (dashed_ne_of_not hid hid.dashed_eq hpoint)
        children := fun _ _ _ => rfl }
  | setChildren id children hinto =>
    exact
      { registry := rfl
        policy := rfl
        root := rfl
        lookUp := fun id hid => .of_eq rfl fun _ _ _ => rfl
        target := fun _ _ => rfl
        children := fun b hb hopen => by
          have hne : BlockId.dashed id ≠ BlockId.dashed b.id := by
            intro heq
            exact hinto ⟨b, RecordMap.get?_of_dashed_eq hb.mem heq.symm, hb, hopen⟩
          exact (ChildIndex.childrenOf_set a.children id children b.id).trans (if_neg hne) }

/-- The tree of a root, or the error in its place, and the unresolved ids depend on nothing but what
is on the way from the root. No number of changes shows that insert blocks which are neither looked
up nor pointed at by an alias on the way, put deleted blocks in place of deleted blocks, or set the
children of ids that the walk does not go into. -/
theorem assemble_reads_only_the_way (a a' : Assembler) (rootId : String)
    (h : ReflTransGen (OffWay rootId) a a') :
    a'.assemble rootId = a.assemble rootId ∧ a'.unresolvedIds rootId = a.unresolvedIds rootId := by
  induction h with
  | refl => exact ⟨rfl, rfl⟩
  | tail _ hlast ih =>
    have hsame := hlast.sameOnWay
    rw [hsame.mirrors.assemble_eq hsame.root_rel, hsame.mirrors.toFollows.unresolvedIds_eq hsame.root_rel]
    exact ih

/-- A page with a link to another page, a deleted line, a page below it and a missing block. -/
def linked : Assembler where
  records := .ofList
    [{ id := "root", blockType := "page" },
     { id := "link", blockType := "alias",
       format := some [("alias_pointer", .object [("id", .string "away")])] },
     { id := "old", blockType := "text", alive := some false },
     { id := "sub", blockType := "page" }, { id := "away", blockType := "page" }]
  children := ChildIndex.empty
    |>.set "root" ["link", "old", "sub", "gone"]
    |>.set "old" ["under"]
    |>.set "sub" ["under"]
  registry := Registry.empty.register "alias" Transformer.aliasOf

theorem linked_pointsAt {id : String} (h : linked.PointsAt "root" id) : id = "away" := by
  obtain ⟨b, children, target, hb, hkind, rfl⟩ := h
  have hmem := hb.mem
  change b ∈ [_, _, _, _, _] at hmem
  simp only [List.mem_cons, List.not_mem_nil, or_false] at hmem
  rcases hmem with rfl | rfl | rfl | rfl | rfl
  case inr.inl =>
    cases hkind
    rfl
  all_goals cases hkind

theorem linked_ignores_rest :
    { linked with
      records := linked.records.insert { id := "stray", blockType := "text" } }.assemble "root" =
        linked.assemble "root" ∧
    { linked with
      records := linked.records.insert
        { id := "old", blockType := "toggle", alive := some false } }.assemble "root" =
        linked.assemble "root" ∧
    { linked with children := linked.children.set "sub" ["gone", "root"] }.unresolvedIds "root" =
      linked.unresolvedIds "root" := by
  have hstray : ¬ linked.LooksUp "root" "stray" :=
    not_looksUp_of_undeclared (by decide) (by decide)
  have hsub : ¬ linked.GoesInto "root" "sub" := by
    refine not_goesInto (by decide) fun b hget => ?_
    obtain rfl : _ = b := Option.some.inj hget
    exact .inr rfl
  refine ⟨?_, ?_, ?_⟩
  · refine (assemble_reads_only_the_way linked _ "root"
      (.single (.insert { id := "stray", blockType := "text" } hstray ?_))).1
    exact fun hpoint => absurd (linked_pointsAt hpoint) (by decide)
  · refine (assemble_reads_only_the_way linked _ "root"
      (.single (.redelete _ _ rfl rfl rfl (by decide) ?_))).1
    exact fun hpoint => absurd (linked_pointsAt hpoint) (by decide)
  · exact (assemble_reads_only_the_way linked _ "root" (.single (.setChildren _ _ hsub))).2

end Assembler
end Folio
