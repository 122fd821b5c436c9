import Folio.Proofs.Assembly.Reach

/-!
# Folio.Proofs.Assembly.Fetching

A loop that asks for the unresolved ids of a root, puts in the blocks that it gets, and asks again.

* `supply`: one missing block comes in, with its children.
* `Reaches.supply`, `reaches_of_supply`: all that was reached still is, and what is reached besides
  lies below the new block. So it is with the unresolved ids.
* `Fetches`: the rounds of the loop. No id is put in twice.
* `fetching_makes_progress`: both together.
-/

namespace Folio
namespace Assembler

open Relation

/-- The same with one more block and its children. -/
def supply (a : Assembler) (b : Block) (children : List String) : Assembler :=
  { a with records := a.records.insert b, children := a.children.set b.id children }

variable {a : Assembler} {rootId : String} {b c d : Block} {children : List String}

section OneBlock

-- the block that comes in was missing
variable (hnone : a.records.get? b.id = none)

include hnone in
theorem get?_supply_of_some {id : String} (hget : a.records.get? id = some c) :
    (a.supply b children).records.get? id = some c := by
  refine (RecordMap.get?_insert_of_ne fun heq => ?_).trans hget
  rw [RecordMap.get?_congr a.records heq, hget] at hnone
  cases hnone

theorem get?_supply_eq_some {id : String} (hget : (a.supply b children).records.get? id = some c) :
    c = b.stored ∧ BlockId.dashed b.id = BlockId.dashed id ∨ a.records.get? id = some c := by
  by_cases heq : BlockId.dashed b.id = BlockId.dashed id
  · have hnew := (RecordMap.get?_insert_self heq).symm.trans hget
    exact .inl ⟨(Option.some.inj hnew).symm, heq⟩
  · exact .inr ((RecordMap.get?_insert_of_ne heq).symm.trans hget)

include hnone in
theorem childrenOf_supply (hc : c ∈ a.records.blocks) :
    (a.supply b children).children.childrenOf c.id = a.children.childrenOf c.id :=
  (ChildIndex.childrenOf_set a.children b.id children c.id).trans
    (if_neg (RecordMap.dashed_ne_of_get?_eq_none hc hnone).symm)

include hnone in
theorem Reaches.supply (h : a.Reaches rootId c) : (a.supply b children).Reaches rootId c := by
  obtain ⟨root, hget, hpath⟩ := h
  induction hpath with
  | refl => exact reaches_root (get?_supply_of_some hnone hget)
  | @tail c d hrc hcd ih =>
    have hc : c ∈ a.records.blocks := Reaches.mem ⟨root, hget, hrc⟩
    obtain ⟨hopen, id, hid, hgetd, hlive⟩ := hcd
    rw [← childrenOf_supply hnone hc] at hid
    exact ih.tail ⟨hopen, id, hid, get?_supply_of_some hnone hgetd, hlive⟩

include hnone in
theorem LooksUp.supply {id : String} (h : a.LooksUp rootId id) :
    (a.supply b children).LooksUp rootId id := by
  rcases h with rfl | ⟨c, hc, hopen, hid⟩
  · exact .inl rfl
  · rw [← childrenOf_supply hnone hc.mem] at hid
    exact .inr ⟨c, hc.supply hnone, hopen, hid⟩

/-- Below the new block, if the walk descends to it at all. -/
def BelowNew (a : Assembler) (rootId : String) (b : Block) (children : List String) (c : Block) :
    Prop :=
  (b.isAlive = true ∨ BlockId.dashed b.id = BlockId.dashed rootId) ∧
    ReflTransGen ((a.supply b children).Descends rootId) b.stored c

include hnone in
/-- A way through the new block goes on below it, and any other was there before. -/
theorem reaches_of_supply (h : (a.supply b children).Reaches rootId c) :
    a.Reaches rootId c ∨ a.BelowNew rootId b children c := by
  obtain ⟨root, hget, hpath⟩ := h
  induction hpath with
  | refl =>
    rcases get?_supply_eq_some hget with ⟨rfl, heq⟩ | hold
    · exact .inr ⟨.inr heq, .refl⟩
    · exact .inl (reaches_root hold)
  | @tail c d _ hcd ih =>
    rcases ih with hc | ⟨hnew, hbelow⟩
    · obtain ⟨hopen, id, hid, hgetd, hlive⟩ := hcd
      rw [childrenOf_supply hnone hc.mem] at hid
      rcases get?_supply_eq_some hgetd with ⟨rfl, -⟩ | hold
      · exact .inr ⟨.inl hlive, .refl⟩
      · exact .inl (hc.tail ⟨hopen, id, hid, hold, hlive⟩)
    · exact .inr ⟨hnew, hbelow.tail hcd⟩

include hnone in
theorem looksUp_of_supply {id : String} (h : (a.supply b children).LooksUp rootId id) :
    a.LooksUp rootId id ∨ ∃ c, a.BelowNew rootId b children c ∧ Opens rootId c ∧
      id ∈ (a.supply b children).children.childrenOf c.id := by
  rcases h with rfl | ⟨c, hc, hopen, hid⟩
  · exact .inl (.inl rfl)
  · rcases reaches_of_supply hnone hc with hold | hbelow
    · rw [childrenOf_supply hnone hold.mem] at hid
      exact .inl (.inr ⟨c, hold, hopen, hid⟩)
    · exact .inr ⟨c, hbelow, hopen, hid⟩

theorem notMem_unresolvedIds_supply :
    BlockId.dashed b.id ∉ (a.supply b children).unresolvedIds rootId := by
  intro hagain
  have hget := (mem_unresolvedIds_iff.mp hagain).2
  rw [RecordMap.get?_dashed] at hget
  exact absurd ((RecordMap.get?_insert_self rfl).symm.trans hget) (Option.some_ne_none _)

include hnone in
theorem mem_unresolvedIds_supply {y : String} (hy : y ∈ a.unresolvedIds rootId)
    (hother : y ≠ BlockId.dashed b.id) : y ∈ (a.supply b children).unresolvedIds rootId := by
  obtain ⟨hlook, hget⟩ := mem_unresolvedIds_iff.mp hy
  refine mem_unresolvedIds_iff.mpr ⟨hlook.supply hnone, ?_⟩
  refine (RecordMap.get?_insert_of_ne fun heq => hother ?_).trans hget
  rw [heq, hlook.dashed_eq]

include hnone in
theorem belowNew_of_mem_unresolvedIds_supply {y : String}
    (hy : y ∈ (a.supply b children).unresolvedIds rootId) (hnew : y ∉ a.unresolvedIds rootId) :
    ∃ c, a.BelowNew rootId b children c ∧ Opens rootId c ∧
      y ∈ (a.supply b children).children.childrenOf c.id := by
  obtain ⟨hlook, hget⟩ := mem_unresolvedIds_iff.mp hy
  refine (looksUp_of_supply hnone hlook).resolve_left fun hold => ?_
  refine hnew (mem_unresolvedIds_iff.mpr ⟨hold, ?_⟩)
  cases hgety : a.records.get? y with
  | none => rfl
  | some c =>
    rw [get?_supply_of_some hnone hgety] at hget
    cases hget

end OneBlock

/-! ## Rounds -/

/-- Blocks for ids come in one after the other, each with some children. -/
inductive Supplies : Assembler → List String → Assembler → Prop where
  | nil {a : Assembler} : Supplies a [] a
  | cons {a a' : Assembler} {ids : List String} (b : Block) (children : List String)
      (rest : Supplies (a.supply b children) ids a') :
      Supplies a (BlockId.dashed b.id :: ids) a'

/-- Rounds of a loop. In each of them blocks come in for ids that are reported as unresolved at its
beginning, be it all of them or some. -/
inductive Fetches (rootId : String) : Assembler → List String → Assembler → Prop where
  | done {a : Assembler} : Fetches rootId a [] a
  | round {a a' a'' : Assembler} {ids later : List String} (hids : ids ⊆ a.unresolvedIds rootId)
      (honce : ids.Nodup) (hnow : Supplies a ids a') (hlater : Fetches rootId a' later a'') :
      Fetches rootId a (ids ++ later) a''

variable {a' : Assembler} {ids fetched : List String}

theorem Supplies.keeps (h : Supplies a ids a') {id : String} (hget : a.records.get? id ≠ none) :
    a'.records.get? id ≠ none := by
  induction h with
  | nil => exact hget
  | cons b children _ ih =>
    refine ih ?_
    unfold supply
    rw [RecordMap.get?_insert]
    split
    · exact Option.some_ne_none _
    · exact hget

theorem Supplies.has (h : Supplies a ids a') : ∀ id ∈ ids, a'.records.get? id ≠ none := by
  induction h with
  | nil =>
    intro id hid
    cases hid
  | @cons a _ _ b children rest ih =>
    intro id hid
    rcases List.mem_cons.mp hid with rfl | hid
    · refine rest.keeps ?_
      rw [RecordMap.get?_dashed]
      have hnew : (a.supply b children).records.get? b.id = some b.stored :=
        RecordMap.get?_insert_self rfl
      rw [hnew]
      exact Option.some_ne_none _
    · exact ih id hid

theorem Fetches.keeps (h : Fetches rootId a fetched a') {id : String}
    (hget : a.records.get? id ≠ none) : a'.records.get? id ≠ none := by
  induction h with
  | done => exact hget
  | round _ _ hnow _ ih => exact ih (hnow.keeps hget)

/-- Each id that is fetched was missing before, is fetched once, and has a record from then on. -/
theorem Fetches.once (h : Fetches rootId a fetched a') :
    fetched.Nodup ∧ ∀ id ∈ fetched, a.records.get? id = none ∧ a'.records.get? id ≠ none := by
  induction h with
  | done => exact ⟨List.nodup_nil, fun id hid => nomatch hid⟩
  | round hids honce hnow hlater ih =>
    obtain ⟨hnodup, hlate⟩ := ih
    constructor
    · refine honce.append hnodup fun id hid hagain => ?_
      exact hnow.has id hid (hlate id hagain).1
    · intro id hid
      rcases List.mem_append.mp hid with hid | hid
      · exact ⟨(mem_unresolvedIds_iff.mp (hids hid)).2, hlater.keeps (hnow.has id hid)⟩
      · refine ⟨?_, (hlate id hid).2⟩
        by_contra hget
        exact hnow.keeps hget (hlate id hid).1

/-- A block that comes in for an unresolved id settles it. All other ids that were unresolved still
are, and those that are so for the first time are declared below the new block, as children of
blocks that it descends to; a deleted block below the root adds none. In rounds of a loop that
supplies unresolved ids no id comes up a second time. -/
theorem fetching_makes_progress (a : Assembler) (rootId : String) :
    (∀ x ∈ a.unresolvedIds rootId, ∀ b children, BlockId.dashed b.id = x →
      x ∉ (a.supply b children).unresolvedIds rootId ∧
      (∀ y ∈ a.unresolvedIds rootId, y ≠ x → y ∈ (a.supply b children).unresolvedIds rootId) ∧
      ∀ y ∈ (a.supply b children).unresolvedIds rootId, y ∉ a.unresolvedIds rootId →
        (b.isAlive = true ∨ x = BlockId.dashed rootId) ∧
        ∃ c, ReflTransGen ((a.supply b children).Descends rootId) b.stored c ∧ Opens rootId c ∧
          y ∈ (a.supply b children).children.childrenOf c.id) ∧
    ∀ fetched a', Fetches rootId a fetched a' →
      fetched.Nodup ∧ ∀ x ∈ fetched, x ∉ a'.unresolvedIds rootId := by
  constructor
  · rintro x hx b children rfl
    obtain ⟨-, hnone⟩ := mem_unresolvedIds_iff.mp hx
    rw [RecordMap.get?_dashed] at hnone
    refine ⟨notMem_unresolvedIds_supply, fun y hy => mem_unresolvedIds_supply hnone hy,
      fun y hy hnew => ?_⟩
    obtain ⟨c, ⟨hbelow, hpath⟩, hopen, hchild⟩ :=
      belowNew_of_mem_unresolvedIds_supply hnone hy hnew
    exact ⟨hbelow, c, hpath, hopen, hchild⟩
  · intro fetched a' h
    obtain ⟨hnodup, hall⟩ := h.once
    exact ⟨hnodup, fun x hx hagain => (hall x hx).2 (mem_unresolvedIds_iff.mp hagain).2⟩

/-- The toggle that comes in for the missing child of `gaps`. -/
def lateToggle : Block := { id := "gone", blockType := "toggle" }

theorem gaps_supply_lateToggle :
    "gone" ∉ (gaps.supply lateToggle ["lost", "new"]).unresolvedIds "root" ∧
    "lost" ∈ (gaps.supply lateToggle ["lost", "new"]).unresolvedIds "root" ∧
    (∃ c, ReflTransGen ((gaps.supply lateToggle ["lost", "new"]).Descends "root") lateToggle c ∧
      Opens "root" c ∧ "new" ∈ (gaps.supply lateToggle ["lost", "new"]).children.childrenOf c.id) ∧
    ∀ x ∈ ["gone"], x ∉ (gaps.supply lateToggle ["lost", "new"]).unresolvedIds "root" := by
  have hroot : gaps.Reaches "root" { id := "root", blockType := "page", alive := some false } :=
    reaches_root rfl
  have hgone : "gone" ∈ gaps.unresolvedIds "root" :=
    mem_unresolvedIds_iff.mpr ⟨.inr ⟨_, hroot, .inl rfl, by decide⟩, rfl⟩
  have hlost : "lost" ∈ gaps.unresolvedIds "root" :=
    mem_unresolvedIds_iff.mpr ⟨.inr ⟨_, hroot, .inl rfl, by decide⟩, rfl⟩
  have hnew : "new" ∈ (gaps.supply lateToggle ["lost", "new"]).unresolvedIds "root" := by
    have hlate : (gaps.supply lateToggle ["lost", "new"]).Reaches "root" lateToggle :=
      (hroot.supply rfl).tail ⟨.inl rfl, "gone", by decide, rfl, rfl⟩
    exact mem_unresolvedIds_iff.mpr ⟨.inr ⟨_, hlate, .inr rfl, by decide⟩, rfl⟩
  have hunasked : "new" ∉ gaps.unresolvedIds "root" := by
    intro h
    exact not_looksUp_of_undeclared (by decide) (by decide) (mem_unresolvedIds_iff.mp h).1
  obtain ⟨hstep, hrounds⟩ := fetching_makes_progress gaps "root"
  obtain ⟨hsettled, hothers, hfresh⟩ := hstep "gone" hgone lateToggle ["lost", "new"] rfl
  have hloop : Fetches "root" gaps ["gone"] (gaps.supply lateToggle ["lost", "new"]) :=
    .round (fun x hx => List.mem_singleton.mp hx ▸ hgone) (List.nodup_singleton _)
      (.cons lateToggle ["lost", "new"] .nil) .done
  exact ⟨hsettled, hothers "lost" hlost (by decide), (hfresh "new" hnew hunasked).2,
    (hrounds _ _ hloop).2⟩

end Assembler
end Folio
