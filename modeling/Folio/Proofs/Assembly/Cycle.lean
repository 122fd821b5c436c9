import Folio.Proofs.Assembly.Depth
import Mathlib.Data.List.Chain
import Mathlib.Logic.Relation

/-!
# Folio.Proofs.Assembly.Cycle

Cycles are found, all of them, and nothing else is taken for one. `Descends` is the graph that a
tree is built from; it is said of records and children alone, without the walk.

* `build_eq_cyclicStructure`: an error names a block that can be left and reached again. The blocks
  on the path are the ones that lead to the block at hand (`Above`).
* `nodup_of_build_eq_ok`: where building succeeds, no walk meets a block twice.
* `assemble_ends_and_detects_cycles`: both together for a root, and that there always is a result.
-/

namespace Folio
namespace Assembler

open Relation

/-- In the tree of a root, a block descends to its children that have a record and are not marked
as deleted. References descend to nothing, except at the root. -/
def Descends (a : Assembler) (rootId : String) (b c : Block) : Prop :=
  (b.id = BlockId.dashed rootId ∨ b.isReference = false) ∧
    ∃ id ∈ a.children.childrenOf b.id, a.records.get? id = some c ∧ c.isAlive = true

/-- A block that the root leads to and that leads back to itself. -/
def LiesOnCycle (a : Assembler) (rootId : String) (root b : Block) : Prop :=
  ReflTransGen (a.Descends rootId) root b ∧ TransGen (a.Descends rootId) b b

/-- Every id of a path is that of a block that leads to `b`. -/
def Above (a : Assembler) (rootId : String) (path : List String) (b : Block) : Prop :=
  ∀ id ∈ path, ∃ c ∈ a.records.blocks, c.id = id ∧ TransGen (a.Descends rootId) c b

variable {a : Assembler} {rootId : String} {b c : Block}

/-- The children of a block count, unless the block is a reference below the root. -/
def Opens (rootId : String) (b : Block) : Prop :=
  b.id = BlockId.dashed rootId ∨ b.isReference = false

theorem opens_of_flag {isRoot : Bool} (hroot : isRoot = true → b.id = BlockId.dashed rootId)
    (h : (isRoot || !b.isReference) = true) : Opens rootId b := by
  cases isRoot with
  | true => exact .inl (hroot rfl)
  | false => exact .inr (by simpa using h)

theorem descent_of_opens {isRoot : Bool} (hroot : isRoot = false → b.id ≠ BlockId.dashed rootId)
    (hopen : Opens rootId b) : a.descent isRoot b = a.children.childrenOf b.id := by
  unfold descent
  rw [if_pos]
  cases isRoot with
  | true => rfl
  | false => simpa using hopen.resolve_left (hroot rfl)

theorem opens_of_mem_descent {isRoot : Bool} {id : String}
    (hroot : isRoot = true → b.id = BlockId.dashed rootId) (hid : id ∈ a.descent isRoot b) :
    Opens rootId b ∧ id ∈ a.children.childrenOf b.id := by
  unfold descent at hid
  split at hid
  · rename_i hflag
    exact ⟨opens_of_flag hroot hflag, hid⟩
  · cases hid

theorem descends_of_mem_descent {isRoot : Bool} {id : String}
    (hroot : isRoot = true → b.id = BlockId.dashed rootId) (hid : id ∈ a.descent isRoot b)
    (hget : a.records.get? id = some c) (hlive : c.isAlive = true) : a.Descends rootId b c := by
  obtain ⟨hopen, hchild⟩ := opens_of_mem_descent hroot hid
  exact ⟨hopen, id, hchild, hget, hlive⟩

theorem mem_descent_of_descends {isRoot : Bool}
    (hroot : isRoot = false → b.id ≠ BlockId.dashed rootId) (h : a.Descends rootId b c) :
    ∃ id ∈ a.descent isRoot b, a.records.get? id = some c ∧ c.isAlive = true := by
  obtain ⟨hopen, id, hid, hget, hlive⟩ := h
  rw [descent_of_opens hroot hopen]
  exact ⟨id, hid, hget, hlive⟩

theorem above_nil : a.Above rootId [] b := by
  intro id hid
  cases hid

/-- One level down, the block itself has come to lead to its child. -/
theorem Above.descend {path : List String} (h : a.Above rootId path b)
    (hb : b ∈ a.records.blocks) (hbc : a.Descends rootId b c) :
    a.Above rootId (b.id :: path) c := by
  intro id hid
  rcases List.mem_cons.mp hid with rfl | hid
  · exact ⟨b, hb, rfl, .single hbc⟩
  · obtain ⟨p, hp, hpid, hpb⟩ := h id hid
    exact ⟨p, hp, hpid, hpb.tail hbc⟩

/-! ## What is reported is a cycle -/

theorem build_eq_cyclicStructure {root : Block} {id : String} :
    ∀ path isRoot b, b ∈ a.records.blocks → ∀ hb,
      (isRoot = true → b.id = BlockId.dashed rootId) → a.Above rootId path b →
      ReflTransGen (a.Descends rootId) root b →
      a.build path b hb isRoot = .error (.cyclicStructure id) →
      ∃ c ∈ a.records.blocks, c.id = id ∧ a.LiesOnCycle rootId root c := by
  refine walk_induction fun path isRoot b hmem ih hb hroot habove hreach h => ?_
  rcases build_eq_error_iff.mp h with ⟨hp, he⟩ | ⟨hp, hall⟩
  · -- the block on the path is this one, and it leads here
    cases he
    obtain ⟨c, hc, hid, hcb⟩ := habove b.id hp
    obtain rfl : c = b := RecordMap.eq_of_id_eq hc hmem hid
    exact ⟨c, hc, rfl, hreach, hcb⟩
  · obtain ⟨i, hi, ⟨c, hc, hget, hlive, hbuild⟩ | ⟨_, _, he⟩⟩ := buildAll_eq_error hall
    · have hbc := descends_of_mem_descent hroot hi hget hlive
      exact ih hp i hi c hget hlive hc (fun hf => nomatch hf) (habove.descend hmem hbc)
        (hreach.tail hbc) hbuild
    · cases he

/-- If children without a record are left out, nothing but a cycle stops a walk. -/
theorem build_error_of_skip (hskip : a.policy = .skip) {e : AssemblyError} :
    ∀ path isRoot b, b ∈ a.records.blocks → ∀ hb,
      a.build path b hb isRoot = .error e → ∃ id, e = .cyclicStructure id := by
  refine walk_induction fun path isRoot b _ ih hb h => ?_
  rcases build_eq_error_iff.mp h with ⟨_, he⟩ | ⟨hp, hall⟩
  · exact ⟨b.id, he⟩
  · obtain ⟨i, hi, ⟨c, hc, hget, hlive, hbuild⟩ | ⟨_, hfail, _⟩⟩ := buildAll_eq_error hall
    · exact ih hp i hi c hget hlive hc hbuild
    · rw [hskip] at hfail
      cases hfail

/-! ## What is not reported is none -/

/-- A walk from a block that could be built meets no block twice and none of the path. Below the
root the path holds the root, so that the root is not met again. -/
theorem nodup_of_build_eq_ok :
    ∀ path isRoot b, b ∈ a.records.blocks → ∀ hb n ws,
      (isRoot = true → b.id = BlockId.dashed rootId) →
      (isRoot = false → BlockId.dashed rootId ∈ path) →
      a.build path b hb isRoot = .ok (n, ws) →
      ∀ walk, (b :: walk).IsChain (a.Descends rootId) →
        (∀ c ∈ b :: walk, c.id ∉ path) ∧ ((b :: walk).map (·.id)).Nodup := by
  refine walk_induction fun path isRoot b hmem ih hb n ws hroot hbelow h walk hchain => ?_
  obtain ⟨hfresh, children, warnings, hall, -, -⟩ := build_eq_ok_iff.mp h
  cases walk with
  | nil => simpa using hfresh
  | cons c walk =>
    obtain ⟨hbc, hrest⟩ := List.isChain_cons_cons.mp hchain
    have hother : isRoot = false → b.id ≠ BlockId.dashed rootId := by
      intro hf hid
      exact hfresh (hid ▸ hbelow hf)
    obtain ⟨i, hi, hget, hlive⟩ := mem_descent_of_descends hother hbc
    have hc := RecordMap.mem_of_get? hget
    obtain ⟨n', ws', hbuild⟩ := build_of_buildAll_eq_ok hall i hi c hc hget hlive
    have hpath : BlockId.dashed rootId ∈ b.id :: path := by
      cases isRoot with
      | true => exact List.mem_cons.mpr (.inl (hroot rfl).symm)
      | false => exact List.mem_cons_of_mem _ (hbelow rfl)
    -- below the block its id is on the path, so that the walk does not come back to it
    obtain ⟨hoff, hnodup⟩ :=
      ih hfresh i hi c hget hlive hc n' ws' (fun hf => nomatch hf) (fun _ => hpath) hbuild walk hrest
    constructor
    · intro d hd
      rcases List.mem_cons.mp hd with rfl | hd
      · exact hfresh
      · exact fun hdp => hoff d hd (List.mem_cons_of_mem _ hdp)
    · rw [List.map_cons, List.nodup_cons]
      refine ⟨fun hbmem => ?_, hnodup⟩
      obtain ⟨d, hd, hid⟩ := List.mem_map.mp hbmem
      exact hoff d hd (hid ▸ List.mem_cons_self)

/-- A block on a cycle is met twice by the walk that goes once around it. -/
theorem LiesOnCycle.exists_walk {root : Block} (h : a.LiesOnCycle rootId root b) :
    ∃ walk, (root :: walk).IsChain (a.Descends rootId) ∧ ¬ ((root :: walk).map (·.id)).Nodup := by
  obtain ⟨hreach, hcycle⟩ := h
  obtain ⟨c, hbc, hcb⟩ := TransGen.head'_iff.mp hcycle
  obtain ⟨there, hthere, hlast⟩ := List.exists_isChain_cons_of_relationReflTransGen hreach
  obtain ⟨back, hback, hend⟩ := List.exists_isChain_cons_of_relationReflTransGen hcb
  have hfirst : b ∈ root :: there := hlast ▸ List.getLast_mem (List.cons_ne_nil root there)
  have hagain : b ∈ c :: back := hend ▸ List.getLast_mem (List.cons_ne_nil c back)
  refine ⟨there ++ c :: back, ?_, fun hnodup => ?_⟩
  · rw [← List.cons_append, List.isChain_append]
    refine ⟨hthere, hback, fun x hx y hy => ?_⟩
    obtain rfl : b = x := by
      rw [← hlast]
      exact (List.getLast_of_mem_getLast? hx)
    obtain rfl : c = y := by simpa using hy
    exact hbc
  · rw [← List.cons_append, List.map_append] at hnodup
    exact List.disjoint_of_nodup_append hnodup (List.mem_map_of_mem hfirst)
      (List.mem_map_of_mem hagain)

/-! ## The tree of a root -/

section Root

variable {root : Block} (hget : a.records.get? rootId = some root)

include hget

theorem assemble_eq_cyclicStructure {id : String}
    (h : a.assemble rootId = .error (.cyclicStructure id)) :
    ∃ b, b.id = id ∧ BlockId.dashed id = id ∧ a.LiesOnCycle rootId root b := by
  rcases assemble_eq_error_iff.mp h with ⟨hnone, _⟩ | ⟨b, hb, hget', hbuild⟩
  · rw [hget] at hnone
    cases hnone
  · obtain rfl : root = b := Option.some.inj (hget.symm.trans hget')
    have hid : root.id = BlockId.dashed rootId := RecordMap.id_of_get? hget
    obtain ⟨c, hc, rfl, hon⟩ :=
      build_eq_cyclicStructure [] true root hb hb (fun _ => hid) above_nil .refl hbuild
    exact ⟨c, rfl, a.records.dashed_id c hc, hon⟩

theorem assemble_error_of_skip (hskip : a.policy = .skip) {e : AssemblyError}
    (h : a.assemble rootId = .error e) :
    ∃ b, e = .cyclicStructure b.id ∧ BlockId.dashed b.id = b.id ∧
      a.LiesOnCycle rootId root b := by
  rcases assemble_eq_error_iff.mp h with ⟨hnone, _⟩ | ⟨b, hb, _, hbuild⟩
  · rw [hget] at hnone
    cases hnone
  · obtain ⟨id, rfl⟩ := build_error_of_skip hskip [] true b hb hb hbuild
    obtain ⟨c, rfl, hdashed, hon⟩ := assemble_eq_cyclicStructure hget h
    exact ⟨c, rfl, hdashed, hon⟩

theorem nodup_of_assemble_eq_ok {t : Assembled} (h : a.assemble rootId = .ok t)
    {walk : List Block} (hchain : (root :: walk).IsChain (a.Descends rootId)) :
    ((root :: walk).map (·.id)).Nodup := by
  obtain ⟨b, hb, hget', hbuild⟩ := assemble_eq_ok_iff.mp h
  obtain rfl : root = b := Option.some.inj (hget.symm.trans hget')
  have hid : root.id = BlockId.dashed rootId := RecordMap.id_of_get? hget
  exact (nodup_of_build_eq_ok [] true root hb hb _ _ (fun _ => hid) (fun hf => nomatch hf)
    hbuild walk hchain).2

end Root

/-- Building the tree of a root with a record always ends. If children without a record are left
out, it fails exactly when a walk from the root meets a block twice, and under either policy a
cyclic structure is reported only of a block that lies on a cycle. A block that is listed many times
over without leading to itself is never reported. -/
theorem assemble_ends_and_detects_cycles (a : Assembler) (rootId : String) (root : Block)
    (hget : a.records.get? rootId = some root) :
    (∀ depth, a.records.size < depth →
      a.assembleWithin depth rootId = some (a.assemble rootId)) ∧
    (a.policy = .skip →
      ((∃ e, a.assemble rootId = .error e) ↔
        ∃ walk, (root :: walk).IsChain (a.Descends rootId) ∧
          ¬ ((root :: walk).map (·.id)).Nodup) ∧
      ∀ e, a.assemble rootId = .error e → ∃ b, e = .cyclicStructure b.id ∧
        BlockId.dashed b.id = b.id ∧ a.LiesOnCycle rootId root b) ∧
    (∀ id, a.assemble rootId = .error (.cyclicStructure id) → ∃ b, b.id = id ∧
      BlockId.dashed id = id ∧ a.LiesOnCycle rootId root b) ∧
    ((∀ b, ¬ a.LiesOnCycle rootId root b) →
      (a.policy = .skip → ∃ t, a.assemble rootId = .ok t) ∧
      ∀ id, a.assemble rootId ≠ .error (.cyclicStructure id)) := by
  refine ⟨fun depth hdepth => assembleWithin_eq_assemble a hdepth rootId,
    fun hskip => ⟨⟨?_, ?_⟩, fun e => assemble_error_of_skip hget hskip⟩,
    fun id => assemble_eq_cyclicStructure hget, fun hacyclic => ⟨fun hskip => ?_, ?_⟩⟩
  · rintro ⟨e, h⟩
    obtain ⟨b, -, -, hon⟩ := assemble_error_of_skip hget hskip h
    exact hon.exists_walk
  · rintro ⟨walk, hchain, htwice⟩
    cases h : a.assemble rootId with
    | error e => exact ⟨e, rfl⟩
    | ok t => exact absurd (nodup_of_assemble_eq_ok hget h hchain) htwice
  · cases h : a.assemble rootId with
    | ok t => exact ⟨t, rfl⟩
    | error e =>
      obtain ⟨b, -, -, hon⟩ := assemble_error_of_skip hget hskip h
      exact absurd hon (hacyclic b)
  · intro id h
    obtain ⟨b, -, -, hon⟩ := assemble_eq_cyclicStructure hget h
    exact hacyclic b hon

/-- A root over a text that is listed twice, a page that lists the root, and two toggles that list
each other. -/
def ringOfToggles : Assembler where
  records := .ofList
    [{ id := "root", blockType := "page" }, { id := "line", blockType := "text" },
     { id := "below", blockType := "page" }, { id := "one", blockType := "toggle" },
     { id := "two", blockType := "toggle" }]
  children := ChildIndex.empty
    |>.set "root" ["line", "line", "below", "one"]
    |>.set "below" ["root"]
    |>.set "one" ["line", "two"]
    |>.set "two" ["one"]

theorem ringOfToggles_reports_one :
    ringOfToggles.records.get? "root" = some { id := "root", blockType := "page" } ∧
    ringOfToggles.assemble "root" = .error (.cyclicStructure "one") ∧
    ∃ b, b.id = "one" ∧
      ringOfToggles.LiesOnCycle "root" { id := "root", blockType := "page" } b := by
  have hget : ringOfToggles.records.get? "root" = some { id := "root", blockType := "page" } := rfl
  obtain ⟨hends, -, hcyclic, -⟩ := assemble_ends_and_detects_cycles ringOfToggles "root" _ hget
  have hwithin : ringOfToggles.assembleWithin 6 "root" = some (.error (.cyclicStructure "one")) := rfl
  have hring : ringOfToggles.assemble "root" = .error (.cyclicStructure "one") :=
    Option.some.inj ((hends 6 (by decide)).symm.trans hwithin)
  obtain ⟨b, hid, -, hon⟩ := hcyclic "one" hring
  exact ⟨hget, hring, b, hid, hon⟩

end Assembler
end Folio
