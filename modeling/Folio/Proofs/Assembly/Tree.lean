import Folio.Proofs.Assembly.Depth
import Folio.Proofs.Node.ListGroup
import Folio.Proofs.Node.Within
import Folio.Proofs.Registry

/-!
# Folio.Proofs.Assembly.Tree

What a finished tree says about the records and children that it was built from.

* `build_eq_of_build_eq_ok`: a block has one tree, whatever the path to it.
* `below_build`: every node below another is a list without an id, or was built of a block, on a
  path that goes through the upper one.
* `assemble_keeps_declared_blocks`: the tree of a root holds the declared blocks, each in its place.
-/

namespace Folio

namespace Assembler

open Node (Within Below ungrouped)

variable {a : Assembler}

/-- An id has a record that is not marked as deleted. -/
def isLive (a : Assembler) (id : String) : Bool :=
  (a.records.get? id).any Block.isAlive

/-! ## The path does not show -/

theorem buildAll_eq_of_buildAll_eq_ok {path path' : List String} {parent : String}
    {ids : List String} {ns ns' : List Node} {ws ws' : List Warning}
    (hchild : ∀ id ∈ ids, ∀ c hc n w n' w', a.records.get? id = some c → c.isAlive = true →
      a.build path c hc false = .ok (n, w) → a.build path' c hc false = .ok (n', w') →
      n = n' ∧ w = w')
    (h : a.buildAll path parent ids = .ok (ns, ws))
    (h' : a.buildAll path' parent ids = .ok (ns', ws')) : ns = ns' ∧ ws = ws' := by
  induction ids generalizing ns ns' ws ws' with
  | nil =>
    rw [buildAll_nil] at h h'
    cases h
    cases h'
    exact ⟨rfl, rfl⟩
  | cons id rest ih =>
    obtain ⟨n, w, ms, more, hhead, hrest, rfl, rfl⟩ := buildAll_cons_eq_ok_iff.mp h
    obtain ⟨n', w', ms', more', hhead', hrest', rfl, rfl⟩ := buildAll_cons_eq_ok_iff.mp h'
    obtain ⟨rfl, rfl⟩ := ih (fun x hx => hchild x (List.mem_cons_of_mem id hx)) hrest hrest'
    -- what the first child is under one path tells what it is under the other
    rcases buildChild_eq_ok_iff.mp hhead with ⟨c, hc, m, hget, hlive, hbuild, rfl⟩ |
      ⟨c, hget, hdead, rfl, rfl⟩ | ⟨hget, -, rfl, rfl⟩
    · rw [buildChild_of_alive hget hlive hc] at hhead'
      cases hbuild' : a.build path' c hc false with
      | error e => rw [hbuild'] at hhead'; cases hhead'
      | ok r =>
        rw [hbuild'] at hhead'
        cases hhead'
        obtain ⟨rfl, rfl⟩ :=
          hchild id List.mem_cons_self c hc m w r.1 r.2 hget hlive hbuild hbuild'
        exact ⟨rfl, rfl⟩
    · rw [buildChild_of_deleted hget hdead] at hhead'
      cases hhead'
      exact ⟨rfl, rfl⟩
    · rw [buildChild_of_missing hget] at hhead'
      cases hp : a.policy with
      | fail => rw [hp] at hhead'; cases hhead'
      | skip => rw [hp] at hhead'; cases hhead'; exact ⟨rfl, rfl⟩

theorem build_eq_of_build_eq_ok : ∀ path isRoot b, b ∈ a.records.blocks →
    ∀ hb path' n ws n' ws', a.build path b hb isRoot = .ok (n, ws) →
      a.build path' b hb isRoot = .ok (n', ws') → n = n' ∧ ws = ws' := by
  refine walk_induction fun path isRoot b _ ih hb path' n ws n' ws' h h' => ?_
  obtain ⟨hoff, ns, warnings, hall, rfl, rfl⟩ := build_eq_ok_iff.mp h
  obtain ⟨-, ns', warnings', hall', rfl, rfl⟩ := build_eq_ok_iff.mp h'
  obtain ⟨rfl, rfl⟩ := buildAll_eq_of_buildAll_eq_ok
    (fun id hid c hc n w n' w' hget hlive => ih hoff id hid c hget hlive hc _ n w n' w') hall hall'
  exact ⟨rfl, rfl⟩

/-! ## One node and its children -/

theorem fillAlias_eq (a : Assembler) (n : Node) : ∃ kind, a.fillAlias n = { n with kind } := by
  unfold fillAlias
  split
  · split
    · exact ⟨_, rfl⟩
    · exact ⟨n.kind, by cases n; rfl⟩
  · exact ⟨n.kind, by cases n; rfl⟩

section Block

variable {path : List String} {b : Block} {hb : b ∈ a.records.blocks} {isRoot : Bool} {n : Node}
  {ws : List Warning}

/-- A node carries what is common to all blocks, and its children in groups. -/
theorem node_of_build (hreg : a.registry.OfTransformers)
    (h : a.build path b hb isRoot = .ok (n, ws)) :
    n.id = some b.id ∧ n.createdTime = b.createdTime ∧ n.lastEditedTime = b.lastEditedTime ∧
      ∃ nodes warnings,
        a.buildAll (b.id :: path) b.id (a.descent isRoot b) = .ok (nodes, warnings) ∧
        n.children = Node.groupItems nodes := by
  obtain ⟨-, nodes, warnings, hall, rfl, -⟩ := build_eq_ok_iff.mp h
  obtain ⟨t, ht⟩ := hreg.exists_transform b nodes
  obtain ⟨kind, hkind⟩ := a.fillAlias_eq (a.registry.transform b nodes).1
  rw [hkind, ht]
  exact ⟨rfl, rfl, rfl, nodes, warnings, hall, rfl⟩

end Block

theorem mem_of_buildAll {path : List String} {parent : String} {ids : List String}
    {nodes : List Node} {ws : List Warning} (h : a.buildAll path parent ids = .ok (nodes, ws)) :
    ∀ n ∈ nodes, ∃ id ∈ ids, ∃ c hc w, a.records.get? id = some c ∧ c.isAlive = true ∧
      a.build path c hc false = .ok (n, w) := by
  replace h := builtAll_of_buildAll h
  intro n hn
  induction h with
  | nil => cases hn
  | @alive i c hc m w _ _ _ hget hlive hbuild _ ih =>
    rcases List.mem_cons.mp hn with rfl | hn
    · exact ⟨i, List.mem_cons_self, c, hc, w, hget, hlive, hbuild⟩
    · obtain ⟨id, hid, rest⟩ := ih hn
      exact ⟨id, List.mem_cons_of_mem i hid, rest⟩
  | @deleted i _ _ _ _ _ _ _ ih | @missing i _ _ _ _ _ _ ih =>
    obtain ⟨id, hid, rest⟩ := ih hn
    exact ⟨id, List.mem_cons_of_mem i hid, rest⟩

theorem ids_of_buildAll (hreg : a.registry.OfTransformers) {path : List String} {parent : String}
    {ids : List String} {nodes : List Node} {ws : List Warning}
    (hdashed : ∀ id ∈ ids, BlockId.dashed id = id)
    (h : a.buildAll path parent ids = .ok (nodes, ws)) :
    nodes.map (·.id) = (ids.filter a.isLive).map some := by
  replace h := builtAll_of_buildAll h
  induction h with
  | nil => rfl
  | @alive i c _ n _ rest nodes _ hget hlive hbuild _ ih =>
    have hid : n.id = some i := by
      rw [(node_of_build hreg hbuild).1, RecordMap.id_of_get? hget,
        hdashed i List.mem_cons_self]
    rw [List.filter_cons_of_pos (by simp [isLive, hget, hlive]), List.map_cons, List.map_cons, hid,
      ih fun x hx => hdashed x (List.mem_cons_of_mem i hx)]
  | @deleted i _ _ _ _ hget hdead _ ih =>
    rw [List.filter_cons_of_neg (by simp [isLive, hget, hdead])]
    exact ih fun x hx => hdashed x (List.mem_cons_of_mem i hx)
  | @missing i _ _ _ hget _ _ ih =>
    rw [List.filter_cons_of_neg (by simp [isLive, hget])]
    exact ih fun x hx => hdashed x (List.mem_cons_of_mem i hx)

/-- Every node that was built has an id, unlike the lists around items. -/
theorem id_ne_none_of_buildAll (hreg : a.registry.OfTransformers) {path : List String}
    {parent : String} {ids : List String} {nodes : List Node} {ws : List Warning}
    (h : a.buildAll path parent ids = .ok (nodes, ws)) : ∀ n ∈ nodes, n.id ≠ none := by
  intro n hn
  obtain ⟨id, -, c, hc, w, -, -, hbuild⟩ := mem_of_buildAll h n hn
  rw [(node_of_build hreg hbuild).1]
  exact Option.some_ne_none c.id

/-- The children of a node are the live ones among those that are visited. -/
theorem children_of_build (hreg : a.registry.OfTransformers) {path : List String} {b : Block}
    {hb : b ∈ a.records.blocks} {isRoot : Bool} {n : Node} {ws : List Warning}
    (h : a.build path b hb isRoot = .ok (n, ws)) :
    (ungrouped n.children).map (·.id) = ((a.descent isRoot b).filter a.isLive).map some ∧
      (a.descent isRoot b = [] → n.children = []) := by
  obtain ⟨-, -, -, nodes, warnings, hall, hchildren⟩ := node_of_build hreg h
  constructor
  · rw [hchildren, Node.ungrouped_groupItems (id_ne_none_of_buildAll hreg hall)]
    exact ids_of_buildAll hreg (fun _ => dashed_of_mem_descent) hall
  · intro hnone
    rw [hnone, buildAll_nil] at hall
    cases hall
    rw [hchildren, Node.groupItems_nil]

/-! ## All nodes -/

/-- Below a node there are lists that stand for no block, and nodes that were built on longer
paths. -/
theorem below_build (hreg : a.registry.OfTransformers) : ∀ path isRoot b, b ∈ a.records.blocks →
    ∀ hb t ws, a.build path b hb isRoot = .ok (t, ws) → ∀ n, Below n t →
      (∃ kind row, n = Node.synthetic (.list kind) row) ∨
      ∃ path' c hc w, b.id :: path ⊆ path' ∧ a.build path' c hc false = .ok (n, w) := by
  refine walk_induction fun path isRoot b _ ih hb t ws h n hbelow => ?_
  obtain ⟨hoff, -⟩ := build_eq_ok_iff.mp h
  obtain ⟨-, -, -, nodes, warnings, hall, hchildren⟩ := node_of_build hreg h
  -- the same for all that is part of a child, whether or not the child stands in a group
  have hwithin : ∀ m ∈ nodes, Within n m →
      (∃ kind row, n = Node.synthetic (.list kind) row) ∨
      ∃ path' c hc w, b.id :: path ⊆ path' ∧ a.build path' c hc false = .ok (n, w) := by
    intro m hm hnm
    obtain ⟨id, hid, c, hc, w, hget, hlive, hbuild⟩ := mem_of_buildAll hall m hm
    rcases hnm.eq_or_below with rfl | hnm
    · exact .inr ⟨b.id :: path, c, hc, w, fun _ h => h, hbuild⟩
    · rcases ih hoff id hid c hget hlive hc m w hbuild n hnm with hlist | hbuilt
      · exact .inl hlist
      · obtain ⟨path', c', hc', w', hpath, hbuild'⟩ := hbuilt
        exact .inr ⟨path', c', hc', w', fun x hx => hpath (List.mem_cons_of_mem c.id hx), hbuild'⟩
  obtain ⟨m, hm, hnm⟩ := hbelow
  rw [hchildren] at hm
  rcases Node.mem_groupItems hm with hm | ⟨kind, row, rfl, hrow⟩
  · exact hwithin m hm hnm
  · rcases hnm.eq_or_below with rfl | ⟨c, hc, hnc⟩
    · exact .inl ⟨kind, row, rfl⟩
    · exact hwithin c (hrow hc) hnc

section Root

variable {rootId : String} {t : Assembled}

theorem root_of_assemble (hreg : a.registry.OfTransformers) (h : a.assemble rootId = .ok t) :
    ∃ b hb, a.records.get? rootId = some b ∧ t.root.id = some b.id ∧
      a.build [] b hb true = .ok (t.root, t.warnings) := by
  obtain ⟨b, hb, hget, hbuild⟩ := assemble_eq_ok_iff.mp h
  exact ⟨b, hb, hget, (node_of_build hreg hbuild).1, hbuild⟩

/-- A node with an id below the root was built on a path that holds the root, and is another
block. -/
theorem build_of_below (hreg : a.registry.OfTransformers) (h : a.assemble rootId = .ok t)
    {n : Node} {x : String} (hn : Below n t.root) (hid : n.id = some x) :
    ∃ path c hc w, c.id = x ∧ a.records.get? x = some c ∧ t.root.id ≠ some x ∧
      a.build path c hc false = .ok (n, w) := by
  obtain ⟨b, hb, -, hroot, hbuild⟩ := root_of_assemble hreg h
  rcases below_build hreg [] true b hb hb _ _ hbuild n hn with
    ⟨kind, row, rfl⟩ | ⟨path, c, hc, w, hpath, hbuild'⟩
  · cases hid
  · obtain rfl : c.id = x := by
      rw [(node_of_build hreg hbuild').1] at hid
      exact Option.some.inj hid
    refine ⟨path, c, hc, w, rfl, RecordMap.get?_of_mem hc, ?_, hbuild'⟩
    rw [hroot]
    intro hsame
    obtain ⟨hoff, -⟩ := build_eq_ok_iff.mp hbuild'
    exact hoff (Option.some.inj hsame ▸ hpath List.mem_cons_self)

/-- A node with an id in the tree was built of the block of that id. -/
theorem build_of_within (hreg : a.registry.OfTransformers) (h : a.assemble rootId = .ok t)
    {n : Node} {x : String} (hn : Within n t.root) (hid : n.id = some x) :
    ∃ path c hc isRoot w, c.id = x ∧ a.records.get? x = some c ∧
      (isRoot = true ↔ n = t.root) ∧ a.build path c hc isRoot = .ok (n, w) := by
  rcases hn.eq_or_below with rfl | hn
  · obtain ⟨b, hb, -, hroot, hbuild⟩ := root_of_assemble hreg h
    obtain rfl : b.id = x := Option.some.inj (hroot.symm.trans hid)
    exact ⟨[], b, hb, true, _, rfl, RecordMap.get?_of_mem hb, by simp, hbuild⟩
  · obtain ⟨path, c, hc, w, hcx, hget, hother, hbuild⟩ := build_of_below hreg h hn hid
    refine ⟨path, c, hc, false, w, hcx, hget, ?_, hbuild⟩
    simp only [Bool.false_eq_true, false_iff]
    rintro rfl
    exact hother hid

theorem eq_of_within_of_id_eq (hreg : a.registry.OfTransformers) (h : a.assemble rootId = .ok t)
    {m n : Node} {x : String} (hm : Within m t.root) (hn : Within n t.root) (hmx : m.id = some x)
    (hnx : n.id = some x) : m = n := by
  rcases hm.eq_or_below with rfl | hm
  · rcases hn.eq_or_below with rfl | hn
    · rfl
    · obtain ⟨-, -, -, -, -, -, hother, -⟩ := build_of_below hreg h hn hnx
      exact absurd hmx hother
  · obtain ⟨path, c, hc, w, hcx, hget, hother, hbuild⟩ := build_of_below hreg h hm hmx
    rcases hn.eq_or_below with rfl | hn
    · exact absurd hnx hother
    · obtain ⟨path', c', hc', w', hcx', -, -, hbuild'⟩ := build_of_below hreg h hn hnx
      obtain rfl := RecordMap.eq_of_id_eq hc hc' (hcx.trans hcx'.symm)
      exact (build_eq_of_build_eq_ok path false c hc hc path' m w n w' hbuild hbuild').1

end Root

/-- In the tree of a root no declared block is lost, none is made up, and each stands in its place:
* a node without an id is a list, and one with an id carries the times of the record of the id;
* the children of the root, and of each node that is no reference, are the live ones of those that
  are declared for it, in order and as often as they are declared;
* a reference below the root has no children;
* nodes with one id are one tree. -/
theorem assemble_keeps_declared_blocks (a : Assembler) (hreg : a.registry.OfTransformers)
    (rootId : String) (t : Assembled) (h : a.assemble rootId = .ok t) :
    t.root.id = some (BlockId.dashed rootId) ∧
    (∀ n, Within n t.root → n.id = none → ∃ kind, n.kind = .list kind) ∧
    (∀ n x, Within n t.root → n.id = some x → ∃ b, a.records.get? x = some b ∧
      n.createdTime = b.createdTime ∧ n.lastEditedTime = b.lastEditedTime) ∧
    (∀ n x b, Within n t.root → n.id = some x → a.records.get? x = some b →
      n = t.root ∨ b.isReference = false →
      (ungrouped n.children).map (·.id) =
        ((a.children.childrenOf x).filter a.isLive).map some) ∧
    (∀ n x b, Below n t.root → n.id = some x → a.records.get? x = some b →
      b.isReference = true → n.children = []) ∧
    (∀ m n x, Within m t.root → Within n t.root → m.id = some x → n.id = some x → m = n) := by
  refine ⟨?_, fun n hn hnone => ?_, fun n x hn hid => ?_, fun n x b hn hid hget hopen => ?_,
    fun n x b hn hid hget href => ?_, fun m n x hm hn hmx hnx =>
      eq_of_within_of_id_eq hreg h hm hn hmx hnx⟩
  · obtain ⟨b, -, hget, hroot, -⟩ := root_of_assemble hreg h
    rw [hroot, RecordMap.id_of_get? hget]
  · obtain ⟨b, hb, -, hroot, hbuild⟩ := root_of_assemble hreg h
    rcases hn.eq_or_below with rfl | hn
    · rw [hroot] at hnone
      cases hnone
    · rcases below_build hreg [] true b hb hb _ _ hbuild n hn with
        ⟨kind, row, rfl⟩ | ⟨path, c, hc, w, -, hbuild'⟩
      · exact ⟨kind, rfl⟩
      · rw [(node_of_build hreg hbuild').1] at hnone
        cases hnone
  · obtain ⟨path, c, hc, isRoot, w, -, hget, -, hbuild⟩ := build_of_within hreg h hn hid
    obtain ⟨-, hcreated, hedited, -⟩ := node_of_build hreg hbuild
    exact ⟨c, hget, hcreated, hedited⟩
  · obtain ⟨path, c, hc, isRoot, w, rfl, hget', hroot, hbuild⟩ := build_of_within hreg h hn hid
    obtain rfl : b = c := Option.some.inj (hget.symm.trans hget')
    have hdescent : a.descent isRoot b = a.children.childrenOf b.id := by
      unfold descent
      rcases hopen with hopen | hopen
      · rw [hroot.mpr hopen]
        rfl
      · rw [hopen]
        simp
    rw [(children_of_build hreg hbuild).1, hdescent]
  · obtain ⟨path, c, hc, w, rfl, hget', -, hbuild⟩ := build_of_below hreg h hn hid
    obtain rfl : b = c := Option.some.inj (hget.symm.trans hget')
    refine (children_of_build hreg hbuild).2 ?_
    unfold descent
    rw [href]
    rfl

/-- A page with a list, an item that stands twice, a page below it and a deleted block. -/
def outline : Assembler where
  records := .ofList
    [{ id := "root", blockType := "page" }, { id := "first", blockType := "bulleted_list" },
     { id := "second", blockType := "bulleted_list" }, { id := "line", blockType := "text" },
     { id := "under", blockType := "page" },
     { id := "old", blockType := "text", alive := some false }]
  children := ChildIndex.empty
    |>.set "root" ["first", "second", "line", "old", "first", "under"]
    |>.set "first" ["line"]
    |>.set "under" ["line"]

theorem outline_children :
    ∃ t, outline.assemble "root" = .ok t ∧
      (ungrouped t.root.children).map (·.id) =
        [some "first", some "second", some "line", some "first", some "under"] := by
  have hok : (outline.assembleWithin 7 "root").map (·.map (·.root.id)) =
      some (.ok (some "root")) := rfl
  rw [assembleWithin_eq_assemble outline (by decide)] at hok
  cases h : outline.assemble "root" with
  | error e =>
    rw [h] at hok
    cases hok
  | ok t =>
    rw [h] at hok
    have hroot : t.root.id = some "root" := Except.ok.inj (Option.some.inj hok)
    obtain ⟨-, -, -, hchildren, -⟩ :=
      assemble_keeps_declared_blocks outline .builtin "root" t h
    refine ⟨t, rfl, ?_⟩
    rw [hchildren t.root "root" _ (.self t.root) hroot rfl (.inl rfl)]
    decide

end Assembler
end Folio
