import Folio.Proofs.Assembly.Cycle
import Folio.Proofs.Assembly.Missing

/-!
# Folio.Proofs.Assembly.Reach

What a root leads to, said of records and children alone, and the search for missing records as a
search for all of it.

* `Reaches`: the blocks that a root leads to. `LooksUp`: the ids that are declared on the way.
* `Search.Tracks`, `Search.Covers`: the invariant of the search. Whatever it has seen has its
  children seen or still on the stack, and what is noted are the missing records among what was seen.
* `mem_unresolvedIds_iff`: the unresolved ids are the ids on the way that have no record.
-/

namespace Folio
namespace Assembler

open Relation

def Reaches (a : Assembler) (rootId : String) (b : Block) : Prop :=
  ∃ root, a.records.get? rootId = some root ∧ ReflTransGen (a.Descends rootId) root b

/-- The root, and whatever is declared as a child on the way from it. -/
def LooksUp (a : Assembler) (rootId id : String) : Prop :=
  id = BlockId.dashed rootId ∨
    ∃ b, a.Reaches rootId b ∧ Opens rootId b ∧ id ∈ a.children.childrenOf b.id

variable {a : Assembler} {rootId id : String} {b c : Block}

theorem Reaches.mem (h : a.Reaches rootId b) : b ∈ a.records.blocks := by
  obtain ⟨root, hget, hpath⟩ := h
  cases hpath with
  | refl => exact RecordMap.mem_of_get? hget
  | tail _ hlast =>
    obtain ⟨-, id, -, hget', -⟩ := hlast
    exact RecordMap.mem_of_get? hget'

theorem Reaches.root_or_alive (h : a.Reaches rootId b) :
    b.id = BlockId.dashed rootId ∨ b.isAlive = true := by
  obtain ⟨root, hget, hpath⟩ := h
  cases hpath with
  | refl => exact .inl (RecordMap.id_of_get? hget)
  | tail _ hlast =>
    obtain ⟨-, id, -, -, hlive⟩ := hlast
    exact .inr hlive

theorem Reaches.tail (h : a.Reaches rootId b) (hbc : a.Descends rootId b c) :
    a.Reaches rootId c := by
  obtain ⟨root, hget, hpath⟩ := h
  exact ⟨root, hget, hpath.tail hbc⟩

theorem reaches_root (hget : a.records.get? rootId = some b) : a.Reaches rootId b :=
  ⟨b, hget, .refl⟩

theorem LooksUp.dashed_eq (h : a.LooksUp rootId id) : BlockId.dashed id = id := by
  rcases h with rfl | ⟨b, -, -, hid⟩
  · exact BlockId.dashed_dashed rootId
  · exact ChildIndex.dashed_of_mem_childrenOf hid

/-- What is looked up and alive is reached. -/
theorem LooksUp.reaches (h : a.LooksUp rootId id) (hget : a.records.get? id = some c)
    (hlive : c.isAlive = true) : a.Reaches rootId c := by
  rcases h with rfl | ⟨b, hb, hopen, hid⟩
  · rw [RecordMap.get?_dashed] at hget
    exact reaches_root hget
  · exact hb.tail ⟨hopen, id, hid, hget, hlive⟩

theorem not_looksUp_of_undeclared (hother : id ≠ BlockId.dashed rootId)
    (h : ∀ b ∈ a.records.blocks, id ∉ a.children.childrenOf b.id) : ¬ a.LooksUp rootId id := by
  rintro (hroot | ⟨b, hb, -, hid⟩)
  · exact hother hroot
  · exact h b hb.mem hid

theorem Reaches.looksUp {isRoot : Bool} (h : a.Reaches rootId b)
    (hroot : isRoot = true → b.id = BlockId.dashed rootId) (hid : id ∈ a.descent isRoot b) :
    a.LooksUp rootId id := by
  obtain ⟨hopen, hchild⟩ := opens_of_mem_descent hroot hid
  exact .inr ⟨b, h, hopen, hchild⟩

end Assembler

/-! ## The search -/

namespace Search

open Assembler

variable {a : Assembler} {rootId : String} {s : Search}

/-- An id that was seen or waits to be looked at. -/
def Covered (s : Search) (id : String) : Prop :=
  id ∈ s.seen ∨ (id, false) ∈ s.stack

/-- What every round of the search keeps, with the root on the stack like any other id. -/
structure Tracks (a : Assembler) (rootId : String) (s : Search) : Prop where
  below : ∀ e ∈ s.stack, e.2 = false
  wanted : ∀ id, s.Covered id → a.LooksUp rootId id
  closed : ∀ b, a.Reaches rootId b → Opens rootId b → b.id ∈ s.seen →
    ∀ id ∈ a.children.childrenOf b.id, s.Covered id
  missing : ∀ id, id ∈ s.missing ↔ id ∈ s.seen ∧ a.records.get? id = none

/-- What holds of the search from its first round on. -/
structure Covers (a : Assembler) (rootId : String) (s : Search) : Prop
    extends Tracks a rootId s where
  root : BlockId.dashed rootId ∈ s.seen

theorem tracks_root (a : Assembler) (rootId : String) :
    Tracks a rootId ⟨[], [(BlockId.dashed rootId, false)], []⟩ := by
  constructor
  case below =>
    intro e he
    rw [List.mem_singleton.mp he]
  case wanted =>
    rintro id (hid | hid)
    · cases hid
    · cases List.mem_singleton.mp hid
      exact .inl rfl
  case closed =>
    intro b _ _ hseen
    cases hseen
  case missing =>
    intro id
    exact iff_of_false List.not_mem_nil fun h => List.not_mem_nil h.1

/-- A round that takes an id off the stack for the first time. Of its children those are put on the
stack that it is open for. -/
theorem Tracks.see (h : s.Tracks a rootId) {id : String} {rest : List (String × Bool)}
    (hstack : s.stack = (id, false) :: rest) (pushed missing : List String)
    (hpushed : ∀ x, x ∈ pushed → a.LooksUp rootId x)
    (hopen : ∀ b, a.Reaches rootId b → Opens rootId b → b.id = id →
      a.children.childrenOf b.id ⊆ pushed)
    (hmissing : ∀ x, x ∈ missing ↔ x ∈ s.missing ∨ x = id ∧ a.records.get? x = none) :
    Tracks a rootId ⟨id :: s.seen, pushed.map (·, false) ++ rest, missing⟩ := by
  -- nothing gets lost: the id that leaves the stack is seen from now on
  have hkeep : ∀ x, s.Covered x →
      Covered ⟨id :: s.seen, pushed.map (·, false) ++ rest, missing⟩ x := by
    rintro x (hx | hx)
    · exact .inl (List.mem_cons_of_mem id hx)
    · rw [hstack] at hx
      rcases List.mem_cons.mp hx with he | hx
      · cases he
        exact .inl List.mem_cons_self
      · exact .inr (List.mem_append_right _ hx)
  have hid : a.LooksUp rootId id := h.wanted id (.inr (hstack ▸ List.mem_cons_self))
  constructor
  case below =>
    intro e he
    rcases List.mem_append.mp he with he | he
    · obtain ⟨c, -, rfl⟩ := List.mem_map.mp he
      rfl
    · exact h.below e (hstack ▸ List.mem_cons_of_mem _ he)
  case wanted =>
    rintro x (hx | hx)
    · rcases List.mem_cons.mp hx with rfl | hx
      · exact hid
      · exact h.wanted x (.inl hx)
    · rcases List.mem_append.mp hx with hx | hx
      · obtain ⟨c, hc, he⟩ := List.mem_map.mp hx
        cases he
        exact hpushed x hc
      · exact h.wanted x (.inr (hstack ▸ List.mem_cons_of_mem _ hx))
  case closed =>
    intro b hb hbopen hseen x hx
    rcases List.mem_cons.mp hseen with hbid | hseen
    · exact .inr (List.mem_append_left _ (List.mem_map.mpr ⟨x, hopen b hb hbopen hbid hx, rfl⟩))
    · exact hkeep x (h.closed b hb hbopen hseen x hx)
  case missing =>
    intro x
    rw [hmissing, h.missing, List.mem_cons]
    constructor
    · rintro (⟨hseen, hnone⟩ | ⟨hx, hnone⟩)
      · exact ⟨.inr hseen, hnone⟩
      · exact ⟨.inl hx, hnone⟩
    · rintro ⟨hx | hseen, hnone⟩
      · exact .inr ⟨hx, hnone⟩
      · exact .inl ⟨hseen, hnone⟩

theorem Tracks.see_missing (h : s.Tracks a rootId) {id : String} {rest : List (String × Bool)}
    (hstack : s.stack = (id, false) :: rest) (hget : a.records.get? id = none) :
    Tracks a rootId ⟨id :: s.seen, rest, s.missing ++ [id]⟩ := by
  refine h.see hstack [] _ (fun x hx => nomatch hx) (fun b hb _ hbid => ?_) fun x => ?_
  · exact absurd (congrArg _ hbid) (RecordMap.dashed_ne_of_get?_eq_none hb.mem hget)
  · rw [List.mem_append, List.mem_singleton]
    exact or_congr_right ⟨fun hx => ⟨hx, hx ▸ hget⟩, fun hx => hx.1⟩

theorem Tracks.see_record (h : s.Tracks a rootId) {id : String} {rest : List (String × Bool)}
    (hstack : s.stack = (id, false) :: rest) {c : Block} (hget : a.records.get? id = some c)
    {pushed : List String} (hpushed : ∀ x, x ∈ pushed → a.LooksUp rootId x)
    (hopen : a.Reaches rootId c → Opens rootId c → a.children.childrenOf c.id ⊆ pushed) :
    Tracks a rootId ⟨id :: s.seen, pushed.map (·, false) ++ rest, s.missing⟩ := by
  refine h.see hstack _ _ hpushed (fun b hb hbopen hbid => ?_) fun x => ?_
  · have hfound := RecordMap.get?_of_dashed_eq hb.mem (congrArg _ hbid)
    obtain rfl := Option.some.inj (hfound.symm.trans hget)
    exact hopen hb hbopen
  · refine ⟨.inl, fun hx => hx.resolve_right ?_⟩
    rintro ⟨rfl, hnone⟩
    rw [hget] at hnone
    cases hnone

theorem Tracks.skip (h : s.Tracks a rootId) {id : String} {rest : List (String × Bool)}
    (hstack : s.stack = (id, false) :: rest) (hold : id ∈ s.seen) :
    Tracks a rootId { s with stack := rest } := by
  have hkeep : ∀ x, s.Covered x → Covered { s with stack := rest } x := by
    rintro x (hx | hx)
    · exact .inl hx
    · rw [hstack] at hx
      rcases List.mem_cons.mp hx with he | hx
      · cases he
        exact .inl hold
      · exact .inr hx
  exact
    { below := fun e he => h.below e (hstack ▸ List.mem_cons_of_mem _ he)
      wanted := fun x hx => h.wanted x (hx.imp_right fun hx => hstack ▸ List.mem_cons_of_mem _ hx)
      closed := fun b hb hopen hseen x hx => hkeep x (h.closed b hb hopen hseen x hx)
      missing := h.missing }

theorem covers_first (a : Assembler) (rootId : String) :
    ((start rootId).next a).Covers a rootId := by
  have hkey := a.records.get?_dashed rootId
  -- the flag of the root decides what its round pushes, and is gone after it
  have htracks := tracks_root a rootId
  cases hget : a.records.get? rootId with
  | none =>
    rw [hget] at hkey
    have hnext : (start rootId).next a =
        ⟨[BlockId.dashed rootId], [], [BlockId.dashed rootId]⟩ := by
      simp [next, start, hkey]
    rw [hnext]
    exact ⟨htracks.see_missing rfl hkey, List.mem_cons_self⟩
  | some root =>
    rw [hget] at hkey
    have hid : root.id = BlockId.dashed rootId := RecordMap.id_of_get? hget
    have hnext : (start rootId).next a =
        ⟨[BlockId.dashed rootId], (a.children.childrenOf root.id).map (·, false) ++ [], []⟩ := by
      simp [next, start, hkey, descent]
    have hchildren : ∀ x, x ∈ a.children.childrenOf root.id → a.LooksUp rootId x :=
      fun x hx => .inr ⟨root, reaches_root hget, .inl hid, hx⟩
    rw [hnext]
    exact ⟨htracks.see_record rfl hkey hchildren fun _ _ => List.Subset.refl _, List.mem_cons_self⟩

theorem Covers.next (h : s.Covers a rootId) : (s.next a).Covers a rootId := by
  cases hstack : s.stack with
  | nil =>
    have hnext : s.next a = s := by simp [Search.next, hstack]
    rwa [hnext]
  | cons e rest =>
    obtain ⟨id, flag⟩ := e
    obtain rfl : flag = false := h.below (id, flag) (hstack ▸ List.mem_cons_self)
    by_cases hold : id ∈ s.seen
    · have hnext : s.next a = { s with stack := rest } := by simp [Search.next, hstack, hold]
      rw [hnext]
      exact ⟨h.toTracks.skip hstack hold, h.root⟩
    · have hid : a.LooksUp rootId id := h.wanted id (.inr (hstack ▸ List.mem_cons_self))
      have hroot : BlockId.dashed rootId ∈ id :: s.seen := List.mem_cons_of_mem id h.root
      cases hget : a.records.get? id with
      | none =>
        have hnext : s.next a = ⟨id :: s.seen, rest, s.missing ++ [id]⟩ := by
          simp [Search.next, hstack, hold, hget]
        rw [hnext]
        exact ⟨h.toTracks.see_missing hstack hget, hroot⟩
      | some c =>
        have hother : c.id ≠ BlockId.dashed rootId := by
          rw [RecordMap.id_of_get? hget, hid.dashed_eq]
          exact fun he => hold (he ▸ h.root)
        cases hlive : c.isAlive with
        | true =>
          have hnext : s.next a =
              ⟨id :: s.seen, (a.descent false c).map (·, false) ++ rest, s.missing⟩ := by
            simp [Search.next, hstack, hold, hget, hlive]
          have hpushed : ∀ x, x ∈ a.descent false c → a.LooksUp rootId x := by
            intro x hx
            refine (hid.reaches hget hlive).looksUp ?_ hx
            intro hf
            cases hf
          rw [hnext]
          refine ⟨h.toTracks.see_record hstack hget hpushed fun _ hopen => ?_, hroot⟩
          rw [descent_of_opens (fun _ => hother) hopen]
          exact List.Subset.refl _
        | false =>
          have hnext : s.next a = ⟨id :: s.seen, [].map (·, false) ++ rest, s.missing⟩ := by
            simp [Search.next, hstack, hold, hget, hlive]
          rw [hnext]
          have hnone : ∀ x, x ∈ ([] : List String) → a.LooksUp rootId x :=
            fun x hx => absurd hx List.not_mem_nil
          refine ⟨h.toTracks.see_record hstack hget hnone fun hc _ => ?_, hroot⟩
          -- only the root is reached although it is deleted, and it was the first to be seen
          have hclive := hc.root_or_alive.resolve_left hother
          rw [hlive] at hclive
          cases hclive

theorem Covers.run (h : s.Covers a rootId) (n : Nat) : (s.run a n).Covers a rootId := by
  induction n generalizing s with
  | zero => exact h
  | succ n ih => exact ih h.next

/-- With nothing left on the stack the search has been everywhere. -/
theorem Covers.seen_of_looksUp (h : s.Covers a rootId) (hstack : s.stack = []) {id : String}
    (hid : a.LooksUp rootId id) : id ∈ s.seen := by
  have hchildren : ∀ b, a.Reaches rootId b → Opens rootId b → b.id ∈ s.seen →
      ∀ x ∈ a.children.childrenOf b.id, x ∈ s.seen := by
    intro b hb hopen hseen x hx
    refine (h.closed b hb hopen hseen x hx).resolve_right fun hwaiting => ?_
    rw [hstack] at hwaiting
    cases hwaiting
  have hblocks : ∀ b, a.Reaches rootId b → b.id ∈ s.seen := by
    rintro b ⟨root, hget, hpath⟩
    induction hpath with
    | refl =>
      rw [RecordMap.id_of_get? hget]
      exact h.root
    | @tail b c hrb hbc ih =>
      obtain ⟨hopen, x, hx, hgetx, -⟩ := hbc
      rw [RecordMap.id_of_get? hgetx, ChildIndex.dashed_of_mem_childrenOf hx]
      exact hchildren b ⟨root, hget, hrb⟩ hopen ih x hx
  rcases hid with rfl | ⟨b, hb, hopen, hchild⟩
  · exact h.root
  · exact hchildren b hb hopen (hblocks b hb) id hchild

end Search

/-- The unresolved ids are those on the way from the root that have no record. -/
theorem Assembler.mem_unresolvedIds_iff {a : Assembler} {rootId id : String} :
    id ∈ a.unresolvedIds rootId ↔ a.LooksUp rootId id ∧ a.records.get? id = none := by
  obtain ⟨n, seen, hrun⟩ := Search.run_start a rootId
  cases n with
  | zero => cases hrun
  | succ n =>
    have hcovers := (Search.covers_first a rootId).run n
    rw [← Search.run, hrun] at hcovers
    rw [hcovers.missing id]
    exact and_congr_left fun _ =>
      ⟨fun hseen => hcovers.wanted id (.inl hseen), hcovers.seen_of_looksUp rfl⟩

end Folio
