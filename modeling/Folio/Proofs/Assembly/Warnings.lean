import Folio.Proofs.Assembly.Tree

/-!
# Folio.Proofs.Assembly.Warnings

The warnings of a walk against its tree. The tree has lost the missing children, and its items stand
in lists; the warnings come at two moments, of a missing child when its turn comes and of an
unsupported block when its children are done. Both are the order of one traversal: that of the tree
with a gap for each missing child, children before their parents.

* `Node.postOrder`: the nodes of a tree, children before their parents.
* `Assembler.entries`: what stands for the declared children of a node, gaps among them.
* `Assembler.places`: all nodes and gaps of a tree in the order of the walk.
* `Assembler.warnings_of_build`: the warnings of a block are those of its places.
* `Assembler.exists_of_places`: what stands below a node stands right before it.
* `Assembler.assemble_warns_in_post_order`: all of it for the tree of a root.
-/

namespace Folio

/-- The parent and the child of a warning of a missing child. -/
def Warning.missing? : Warning → Option (String × String)
  | .unresolvedChild parent child => some (parent, child)
  | _ => none

/-- The id and the type of a warning of an unsupported block. -/
def Warning.unsupported? : Warning → Option (Option String × String)
  | .unsupportedBlockType id blockType => some (some id, blockType)
  | _ => none

/-! ## Trees in post-order -/

namespace Node

mutual

/-- The nodes of a tree, children before their parents. -/
def postOrder : Node → List Node
  | ⟨id, kind, color, created, edited, children⟩ =>
    postOrderAll children ++ [⟨id, kind, color, created, edited, children⟩]

def postOrderAll : List Node → List Node
  | [] => []
  | n :: rest => postOrder n ++ postOrderAll rest

end

/-- The id and the type of an unsupported node. -/
def unsupported? (n : Node) : Option (Option String × String) :=
  match n.kind with
  | .unsupported blockType => some (n.id, blockType)
  | _ => none

theorem unsupported?_eq_some_iff {n : Node} {id : Option String} {blockType : String} :
    n.unsupported? = some (id, blockType) ↔ n.id = id ∧ n.kind = .unsupported blockType := by
  unfold unsupported?
  split
  · rename_i t hkind
    simp [hkind]
  · rename_i hother
    simp only [reduceCtorEq, false_iff, not_and]
    exact fun _ => hother blockType

theorem postOrderAll_eq (nodes : List Node) : postOrderAll nodes = nodes.flatMap postOrder := by
  induction nodes with
  | nil => rfl
  | cons n rest ih => rw [postOrderAll, ih, List.flatMap_cons]

theorem postOrder_eq (n : Node) : n.postOrder = n.children.flatMap postOrder ++ [n] := by
  cases n
  rw [postOrder, postOrderAll_eq]

/-- Lists around items are not unsupported, and the items stay in order. -/
theorem unsupported_groupItems (nodes : List Node) :
    ((groupItems nodes).flatMap postOrder).filterMap unsupported? =
      (nodes.flatMap postOrder).filterMap unsupported? := by
  induction nodes using groupItems.induct with
  | case1 => rw [groupItems_nil]
  | case2 n rest hother ih =>
    rw [groupItems_of_other hother, List.flatMap_cons, List.flatMap_cons, List.filterMap_append,
      List.filterMap_append, ih]
  | case3 n rest kind hitem ih =>
    have hlist : (synthetic (.list kind) (n :: rest.takeWhile (isItemOf kind))).postOrder.filterMap
        unsupported? = ((n :: rest.takeWhile (isItemOf kind)).flatMap postOrder).filterMap
          unsupported? := by
      rw [postOrder_eq, List.filterMap_append]
      exact List.append_nil _
    rw [groupItems_of_item hitem, List.flatMap_cons, List.filterMap_append, hlist, ih,
      ← List.filterMap_append, ← List.flatMap_append, List.cons_append,
      List.takeWhile_append_dropWhile]

theorem below_of_mem_ungrouped {n t : Node} (h : n ∈ ungrouped t.children) : Below n t := by
  obtain ⟨c, hc, hn⟩ := List.mem_flatMap.mp h
  unfold items at hn
  split at hn
  · exact ⟨c, hc, .child hn (.self n)⟩
  · obtain rfl := List.mem_singleton.mp hn
    exact ⟨n, hc, .self n⟩

end Node

/-! ## Trees with gaps -/

/-- What stands for a declared child: a node, or a gap where the child is missing. -/
inductive Place where
  | gap (parent child : String)
  | node (n : Node)

namespace Place

def id? : Place → Option String
  | gap _ child => some child
  | node n => n.id

def gap? : Place → Option (String × String)
  | gap parent child => some (parent, child)
  | node _ => none

def node? : Place → Option Node
  | gap _ _ => none
  | node n => some n

def warning? : Place → Option Warning
  | gap parent child => some (.unresolvedChild parent child)
  | node n => n.unsupported?.bind fun own => own.1.map (.unsupportedBlockType · own.2)

/-- Only gaps and unsupported nodes give rise to warnings, each to its own. -/
theorem warning?_eq_some_iff {p : Place} {w : Warning} : p.warning? = some w ↔
    (∃ parent child, p = gap parent child ∧ w = .unresolvedChild parent child) ∨
    ∃ n id blockType, p = node n ∧ n.id = some id ∧ n.kind = .unsupported blockType ∧
      w = .unsupportedBlockType id blockType := by
  cases p with
  | gap parent child => simp [warning?, eq_comm]
  | node n =>
    simp only [warning?, Option.bind_eq_some_iff, Prod.exists, Node.unsupported?_eq_some_iff,
      Option.map_eq_some_iff]
    constructor
    · rintro ⟨_, blockType, ⟨rfl, hkind⟩, id, hid, rfl⟩
      exact .inr ⟨n, id, blockType, rfl, hid, hkind, rfl⟩
    · rintro (⟨_, _, hgap, -⟩ | ⟨_, id, blockType, hnode, hid, hkind, rfl⟩)
      · cases hgap
      · obtain rfl := Place.node.inj hnode
        exact ⟨_, blockType, ⟨rfl, hkind⟩, id, hid, rfl⟩

theorem missing?_warning? (p : Place) : p.warning?.bind Warning.missing? = p.gap? := by
  cases p with
  | gap parent child => rfl
  | node n =>
    cases hw : (node n).warning? with
    | none => rfl
    | some w =>
      obtain ⟨_, _, hgap, -⟩ | ⟨_, _, _, -, -, -, rfl⟩ := warning?_eq_some_iff.mp hw
      · cases hgap
      · rfl

end Place

namespace Assembler

open Node (Within Below ungrouped)

/-- The places of declared children of a parent. A missing child leaves a gap and a deleted one
nothing; the other ones take the nodes in turn. -/
def placed (a : Assembler) (parent : String) : List String → List Node → List Place
  | [], nodes => nodes.map .node
  | id :: rest, nodes =>
    if a.isLive id then (nodes.head?.map Place.node).toList ++ a.placed parent rest nodes.tail
    else if a.records.contains id then a.placed parent rest nodes
    else .gap parent id :: a.placed parent rest nodes

/-- The places of the declared children of a node, if its block is descended into. -/
def entries (a : Assembler) (isRoot : Bool) (n : Node) : List Place :=
  match n.id.bind a.records.get? with
  | some b => a.placed b.id (a.descent isRoot b) (ungrouped n.children)
  | none => []

variable {a : Assembler}

theorem nodes_placed (parent : String) (ids : List String) (nodes : List Node) :
    (a.placed parent ids nodes).filterMap Place.node? = nodes := by
  induction ids generalizing nodes with
  | nil =>
    rw [placed, List.filterMap_map]
    exact List.filterMap_some
  | cons id rest ih =>
    unfold placed
    split
    · cases nodes with
      | nil => exact ih []
      | cons n more => exact congrArg (n :: ·) (ih more)
    · split
      · exact ih nodes
      · exact ih nodes

theorem contains_of_isLive {id : String} (h : a.isLive id = true) :
    a.records.contains id = true := by
  unfold isLive at h
  unfold RecordMap.contains
  cases hget : a.records.get? id with
  | none => rw [hget] at h; cases h
  | some b => rfl

theorem gaps_placed (parent : String) (ids : List String) (nodes : List Node) :
    (a.placed parent ids nodes).filterMap Place.gap? =
      (ids.filter (!a.records.contains ·)).map (parent, ·) := by
  induction ids generalizing nodes with
  | nil =>
    rw [placed, List.filterMap_map]
    exact List.filterMap_eq_nil_iff.mpr fun _ _ => rfl
  | cons id rest ih =>
    unfold placed
    split
    · rename_i hlive
      rw [List.filter_cons_of_neg (by simp [contains_of_isLive hlive]), ← ih nodes.tail]
      cases nodes <;> rfl
    · split
      · rename_i hfound
        rw [List.filter_cons_of_neg (by simp [hfound])]
        exact ih nodes
      · rename_i hmissing
        rw [List.filter_cons_of_pos (by simpa using hmissing)]
        exact congrArg ((parent, id) :: ·) (ih nodes)

theorem nodes_entries {isRoot : Bool} {n : Node} {m : Node} (h : .node m ∈ a.entries isRoot n) :
    m ∈ ungrouped n.children := by
  unfold entries at h
  split at h
  · rename_i b _
    rw [← nodes_placed (a := a) b.id (a.descent isRoot b) (ungrouped n.children)]
    exact List.mem_filterMap.mpr ⟨_, h, rfl⟩
  · cases h

/-- The places of a tree in the order in which a walk leaves them: those below a node, and then the
node. -/
def places (a : Assembler) (isRoot : Bool) (n : Node) : List Place :=
  (a.entries isRoot n).attach.flatMap (fun
    | ⟨.gap parent child, _⟩ => [.gap parent child]
    | ⟨.node m, _⟩ => a.places false m) ++ [.node n]
termination_by sizeOf n
decreasing_by
  rename_i hm
  exact (Node.below_of_mem_ungrouped (nodes_entries hm)).sizeOf_lt

/-- The places of a declared child: a gap by itself, or those of a tree. -/
def spread (a : Assembler) : Place → List Place
  | .gap parent child => [.gap parent child]
  | .node m => a.places false m

/-- The places below a node. -/
def below (a : Assembler) (isRoot : Bool) (n : Node) : List Place :=
  (a.entries isRoot n).flatMap a.spread

theorem places_eq (isRoot : Bool) (n : Node) :
    a.places isRoot n = a.below isRoot n ++ [.node n] := by
  have hspread : (a.entries isRoot n).attach.flatMap (fun p => a.spread p.1) =
      a.below isRoot n := by
    rw [← List.flatMap_map, List.attach_map_subtype_val, below]
  rw [places, ← hspread]
  congr 2
  funext ⟨p, hp⟩
  cases p <;> rfl

/-- A declared child has a place unless it is marked as deleted. -/
def hasPlace (a : Assembler) (id : String) : Bool :=
  a.isLive id || !a.records.contains id

theorem ids_placed (parent : String) {ids : List String} {nodes : List Node}
    (h : nodes.map (·.id) = (ids.filter a.isLive).map some) :
    (a.placed parent ids nodes).map Place.id? = (ids.filter a.hasPlace).map some := by
  induction ids generalizing nodes with
  | nil =>
    obtain rfl := List.map_eq_nil_iff.mp h
    rfl
  | cons id rest ih =>
    unfold placed
    split
    · rename_i hlive
      rw [List.filter_cons_of_pos hlive] at h
      obtain ⟨n, more, rfl, hid, hmore⟩ := List.map_eq_cons_iff.mp h
      rw [List.filter_cons_of_pos (by simp [hasPlace, hlive])]
      exact congrArg₂ (· :: ·) hid (ih hmore)
    · rename_i hlive
      rw [List.filter_cons_of_neg hlive] at h
      split
      · rename_i hfound
        rw [List.filter_cons_of_neg (by simp [hasPlace, hlive, hfound])]
        exact ih h
      · rename_i hmissing
        rw [List.filter_cons_of_pos (by simp [hasPlace, hmissing])]
        exact congrArg (some id :: ·) (ih h)

end Assembler

/-! ## The warning of a block itself -/

theorem Transformer.unsupported?_node {t : Transformer} (h : t ≠ .unsupported) (b : Block)
    (children : List Node) : (t.node b children).unsupported? = none := by
  cases t with
  | unsupported => exact absurd rfl h
  | _ => rfl

namespace Registry

theorem exists_of_find?_builtin {tag : String} {make : NodeMaker}
    (h : builtin.find? tag = some make) : ∃ t : Transformer, t ≠ .unsupported ∧ make = t.node := by
  have hsupported : ∀ e ∈ builtinTransformers, e.2 ≠ .unsupported := by decide
  obtain ⟨before, after, heq, -⟩ := List.lookup_eq_some_iff.mp h
  have hmem : (tag, make) ∈ builtin.entries := by rw [heq]; simp
  obtain ⟨e, he, hmake⟩ := List.mem_map.mp hmem
  obtain ⟨-, rfl⟩ := Prod.mk.inj hmake
  exact ⟨e.2, hsupported e he, rfl⟩

/-- A block is warned of just where its node is unsupported. -/
theorem warnings_transform_builtin (b : Block) (children : List Node) :
    (builtin.transform b children).2 =
      (Place.node (builtin.transform b children).1).warning?.toList := by
  unfold transform
  cases hfind : builtin.find? b.blockType with
  | none => rfl
  | some make =>
    obtain ⟨t, ht, rfl⟩ := exists_of_find?_builtin hfind
    simp only [Place.warning?, t.unsupported?_node ht]
    rfl

end Registry

namespace Assembler

open Node (Within Below ungrouped)

variable {a : Assembler}

theorem unsupported?_fillAlias (n : Node) : (a.fillAlias n).unsupported? = n.unsupported? := by
  unfold fillAlias
  split
  · rename_i hkind
    split
    · simp [Node.unsupported?, hkind]
    · rfl
  · rfl

/-! ## One block -/

theorem entries_of_id {b : Block} (hb : b ∈ a.records.blocks) {n : Node} (hid : n.id = some b.id)
    (isRoot : Bool) :
    a.entries isRoot n = a.placed b.id (a.descent isRoot b) (ungrouped n.children) := by
  have hget : n.id.bind a.records.get? = some b := by
    rw [hid]
    exact RecordMap.get?_of_mem hb
  rw [entries, hget]

section Block

variable (hreg : a.registry = .builtin) {path : List String}
include hreg

/-- A block without its children: what it adds to their nodes, places and warnings. -/
theorem parts_of_build {b : Block} {hb : b ∈ a.records.blocks} {isRoot : Bool} {n : Node}
    {ws : List Warning} (h : a.build path b hb isRoot = .ok (n, ws)) :
    ∃ nodes warnings,
      a.buildAll (b.id :: path) b.id (a.descent isRoot b) = .ok (nodes, warnings) ∧
      n.children = Node.groupItems nodes ∧
      a.entries isRoot n = a.placed b.id (a.descent isRoot b) nodes ∧
      ws = warnings ++ (Place.node n).warning?.toList := by
  have hmade : a.registry.OfTransformers := hreg ▸ .builtin
  obtain ⟨-, nodes, warnings, hall, hn, rfl⟩ := build_eq_ok_iff.mp h
  obtain ⟨hid, -, -, nodes', warnings', hall', hchildren⟩ := node_of_build hmade h
  obtain ⟨rfl, rfl⟩ := Prod.mk.inj (Except.ok.inj (hall.symm.trans hall'))
  refine ⟨nodes, warnings, hall, hchildren, ?_, ?_⟩
  · rw [entries_of_id hb hid, hchildren,
      Node.ungrouped_groupItems (id_ne_none_of_buildAll hmade hall)]
  · have hown : (Place.node n).warning? = (Place.node (a.registry.transform b nodes).1).warning? := by
      rw [hn, Place.warning?, unsupported?_fillAlias, Place.warning?]
    rw [hown, hreg, Registry.warnings_transform_builtin]

omit hreg in
theorem warnings_of_buildAll {parent : String} {ids : List String} {nodes : List Node}
    {ws : List Warning}
    (hchild : ∀ id ∈ ids, ∀ c hc n w, a.records.get? id = some c → c.isAlive = true →
      a.build path c hc false = .ok (n, w) → w = (a.places false n).filterMap Place.warning?)
    (h : a.buildAll path parent ids = .ok (nodes, ws)) :
    ws = ((a.placed parent ids nodes).flatMap a.spread).filterMap Place.warning? := by
  replace h := builtAll_of_buildAll h
  induction h with
  | nil => rfl
  | @alive id c hc n w rest nodes ws hget hlive hbuild _ ih =>
    have hown := hchild id List.mem_cons_self c hc n w hget hlive hbuild
    have hplaced : a.placed parent (id :: rest) (n :: nodes) =
        .node n :: a.placed parent rest nodes := by
      rw [placed, if_pos (by simp [isLive, hget, hlive])]
      rfl
    rw [hplaced, List.flatMap_cons, List.filterMap_append,
      ← ih fun x hx => hchild x (List.mem_cons_of_mem id hx), hown]
    rfl
  | @deleted id c rest nodes ws hget hdead _ ih =>
    rw [placed, if_neg (by simp [isLive, hget, hdead]),
      if_pos (by simp [RecordMap.contains, hget])]
    exact ih fun x hx => hchild x (List.mem_cons_of_mem id hx)
  | @missing id rest nodes ws hget _ _ ih =>
    rw [placed, if_neg (by simp [isLive, hget]), if_neg (by simp [RecordMap.contains, hget]),
      ih fun x hx => hchild x (List.mem_cons_of_mem id hx)]
    rfl

/-- The warnings of a block are those of its places, in their order. -/
theorem warnings_of_build : ∀ path isRoot b, b ∈ a.records.blocks → ∀ hb n ws,
    a.build path b hb isRoot = .ok (n, ws) →
      ws = (a.places isRoot n).filterMap Place.warning? := by
  refine walk_induction fun path isRoot b _ ih hb n ws h => ?_
  obtain ⟨hoff, -⟩ := build_eq_ok_iff.mp h
  obtain ⟨nodes, warnings, hall, -, hentries, rfl⟩ := parts_of_build hreg h
  have hbelow : warnings = (a.below isRoot n).filterMap Place.warning? := by
    rw [below, hentries]
    exact warnings_of_buildAll (fun id hid c hc m w hget hlive hbuild =>
      ih hoff id hid c hget hlive hc m w hbuild) hall
  rw [places_eq, List.filterMap_append, hbelow]
  rfl

omit hreg in
theorem unsupported_of_buildAll {parent : String} {ids : List String} {nodes : List Node}
    {ws : List Warning}
    (hchild : ∀ id ∈ ids, ∀ c hc n w, a.records.get? id = some c → c.isAlive = true →
      a.build path c hc false = .ok (n, w) →
      w.filterMap Warning.unsupported? = n.postOrder.filterMap Node.unsupported?)
    (h : a.buildAll path parent ids = .ok (nodes, ws)) :
    ws.filterMap Warning.unsupported? =
      (nodes.flatMap Node.postOrder).filterMap Node.unsupported? := by
  replace h := builtAll_of_buildAll h
  induction h with
  | nil => rfl
  | @alive id c hc n w _ _ _ hget hlive hbuild _ ih =>
    rw [List.filterMap_append, List.flatMap_cons, List.filterMap_append,
      ih fun x hx => hchild x (List.mem_cons_of_mem id hx),
      hchild id List.mem_cons_self c hc n w hget hlive hbuild]
  | @deleted id _ _ _ _ _ _ _ ih | @missing id _ _ _ _ _ _ ih =>
    exact ih fun x hx => hchild x (List.mem_cons_of_mem id hx)

/-- The warnings of unsupported blocks are those of the unsupported nodes, in post-order. -/
theorem unsupported_of_build : ∀ path isRoot b, b ∈ a.records.blocks → ∀ hb n ws,
    a.build path b hb isRoot = .ok (n, ws) →
      ws.filterMap Warning.unsupported? = n.postOrder.filterMap Node.unsupported? := by
  refine walk_induction fun path isRoot b _ ih hb n ws h => ?_
  obtain ⟨hoff, -⟩ := build_eq_ok_iff.mp h
  obtain ⟨hid, -⟩ := node_of_build (hreg ▸ .builtin) h
  obtain ⟨nodes, warnings, hall, hchildren, -, rfl⟩ := parts_of_build hreg h
  have hbelow := unsupported_of_buildAll (fun id hid c hc m w hget hlive hbuild =>
    ih hoff id hid c hget hlive hc m w hbuild) hall
  rw [List.filterMap_append, hbelow, Node.postOrder_eq, List.filterMap_append, hchildren,
    Node.unsupported_groupItems]
  congr 1
  cases hown : n.unsupported? with
  | none => simp [Place.warning?, hown]
  | some own =>
    obtain ⟨id, blockType⟩ := own
    obtain ⟨rfl, -⟩ := Node.unsupported?_eq_some_iff.mp hown
    simp [Place.warning?, hown, hid, Warning.unsupported?]

end Block

/-! ## What stands before a node -/

theorem exists_of_flatMap_eq {α β : Type} {f : α → List β} {l : List α} {before after : List β}
    {x : β} (h : l.flatMap f = before ++ x :: after) :
    ∃ front e back start rest, l = front ++ e :: back ∧ f e = start ++ x :: rest ∧
      before = front.flatMap f ++ start := by
  induction l generalizing before with
  | nil => simp at h
  | cons e l ih =>
    have hcases : (∃ start, before = f e ++ start ∧ l.flatMap f = start ++ x :: after) ∨
        ∃ rest, f e = before ++ x :: rest := by
      rw [List.flatMap_cons] at h
      rcases List.append_eq_append_iff.mp h with ⟨start, hbefore, hl⟩ | ⟨rest, hfe, hl⟩
      · exact .inl ⟨start, hbefore, hl⟩
      · cases rest with
        | nil => exact .inl ⟨[], by simpa using hfe.symm, hl.symm⟩
        | cons y rest =>
          obtain ⟨rfl, -⟩ := List.cons.inj hl
          exact .inr ⟨rest, hfe⟩
    rcases hcases with ⟨start, rfl, hl⟩ | ⟨rest, hfe⟩
    · obtain ⟨front, e', back, start', rest, rfl, he', rfl⟩ := ih hl
      refine ⟨e :: front, e', back, start', rest, rfl, he', ?_⟩
      rw [List.flatMap_cons, List.append_assoc]
    · exact ⟨[], e, l, before, rest, rfl, hfe, rfl⟩

/-- What stands below a node stands right before it. -/
theorem exists_of_places {t n : Node} {isRoot : Bool} {before after : List Place}
    (h : a.places isRoot t = before ++ .node n :: after) :
    ∃ flag front, Within n t ∧ (flag = true ↔ isRoot = true ∧ n = t) ∧
      before = front ++ a.below flag n := by
  induction hsize : sizeOf t using Nat.strongRecOn generalizing t isRoot before after with
  | ind size ih =>
    rw [places_eq] at h
    -- the places of a tree end in its root: either that is the node, or the node is below
    rcases List.eq_nil_or_concat after with rfl | ⟨after, last, rfl⟩
    · obtain ⟨rfl, hlast⟩ := List.append_inj' h rfl
      obtain rfl : t = n := Place.node.inj (List.cons.inj hlast).1
      exact ⟨isRoot, [], .self t, by simp, rfl⟩
    · have hbelow : a.below isRoot t = before ++ .node n :: after := by
        rw [List.concat_eq_append, ← List.cons_append, ← List.append_assoc] at h
        exact (List.append_inj' h rfl).1
      obtain ⟨front, e, back, start, rest, hentries, he, rfl⟩ := exists_of_flatMap_eq hbelow
      cases e with
      | gap parent child =>
        have hmem : .node n ∈ a.spread (.gap parent child) := by
          rw [he]
          exact List.mem_append_cons_self
        cases List.mem_singleton.mp hmem
      | node m =>
        have hm : Below m t :=
          Node.below_of_mem_ungrouped (nodes_entries (hentries ▸ List.mem_append_cons_self))
        obtain ⟨flag, front', hnm, hflag, rfl⟩ := ih _ (hsize ▸ hm.sizeOf_lt) he rfl
        obtain ⟨c, hc, hmc⟩ := hm
        have hother : n ≠ t := by
          rintro rfl
          exact absurd (Below.sizeOf_lt ⟨c, hc, hnm.trans hmc⟩) (Nat.lt_irrefl _)
        refine ⟨flag, front.flatMap a.spread ++ front', .child hc (hnm.trans hmc), ?_, ?_⟩
        · rw [hflag]
          simp [hother]
        · rw [List.append_assoc]

/-! ## The tree of a root -/

/-- The places of the declared children of a node that a block was built to. -/
theorem entries_of_build (hreg : a.registry = .builtin) {path : List String} {b : Block}
    {hb : b ∈ a.records.blocks} {isRoot : Bool} {n : Node} {ws : List Warning}
    (h : a.build path b hb isRoot = .ok (n, ws)) :
    (a.entries isRoot n).map Place.id? = ((a.descent isRoot b).filter a.hasPlace).map some ∧
    (a.entries isRoot n).filterMap Place.gap? =
      ((a.descent isRoot b).filter (!a.records.contains ·)).map (b.id, ·) ∧
    (a.entries isRoot n).filterMap Place.node? = ungrouped n.children := by
  have hmade : a.registry.OfTransformers := hreg ▸ .builtin
  rw [entries_of_id hb (node_of_build hmade h).1]
  exact ⟨ids_placed b.id (children_of_build hmade h).1, gaps_placed _ _ _, nodes_placed _ _ _⟩

/-- The warnings of a walk with all known block types are those of the finished tree and of the gaps
in it, in post-order:
* there is one for every gap and for every unsupported node, in the order of the places of the tree,
  and there are no others;
* so those of unsupported blocks are the ids and types of the unsupported nodes, in post-order;
* those of missing children are the gaps: at each node, the declared children that are not deleted
  stand in order, as the nodes that became its children or, without a record, as gaps of the node;
* right before the warning of an unsupported block stand those of all places below it. -/
theorem assemble_warns_in_post_order (a : Assembler) (hreg : a.registry = .builtin)
    (rootId : String) (t : Assembled) (h : a.assemble rootId = .ok t) :
    t.warnings = (a.places true t.root).filterMap Place.warning? ∧
    (∀ code, .unsupportedStyle code ∉ t.warnings) ∧
    t.warnings.filterMap Warning.unsupported? = t.root.postOrder.filterMap Node.unsupported? ∧
    t.warnings.filterMap Warning.missing? = (a.places true t.root).filterMap Place.gap? ∧
    (∀ n x b isRoot, Within n t.root → n.id = some x → a.records.get? x = some b →
      (isRoot = true ↔ n = t.root) →
      (a.entries isRoot n).map Place.id? = ((a.descent isRoot b).filter a.hasPlace).map some ∧
      (a.entries isRoot n).filterMap Place.gap? =
        ((a.descent isRoot b).filter (!a.records.contains ·)).map (x, ·) ∧
      (a.entries isRoot n).filterMap Place.node? = ungrouped n.children) ∧
    ∀ before x blockType after,
      t.warnings = before ++ .unsupportedBlockType x blockType :: after →
      ∃ n isRoot front, Within n t.root ∧ (isRoot = true ↔ n = t.root) ∧
        n.id = some x ∧ n.kind = .unsupported blockType ∧
        before = front ++ (a.below isRoot n).filterMap Place.warning? := by
  have hmade : a.registry.OfTransformers := hreg ▸ .builtin
  obtain ⟨b, hb, -, -, hbuild⟩ := root_of_assemble hmade h
  have hwarnings := warnings_of_build hreg [] true b hb hb _ _ hbuild
  refine ⟨hwarnings, fun code hcode => ?_, unsupported_of_build hreg [] true b hb hb _ _ hbuild,
    ?_, fun n x c isRoot hn hid hget hroot => ?_, fun before x blockType after hsplit => ?_⟩
  · rw [hwarnings] at hcode
    obtain ⟨p, -, hp⟩ := List.mem_filterMap.mp hcode
    obtain ⟨_, _, -, hw⟩ | ⟨_, _, _, -, -, -, hw⟩ := Place.warning?_eq_some_iff.mp hp
    · cases hw
    · cases hw
  · rw [hwarnings, List.filterMap_filterMap]
    exact congrArg (List.filterMap · _) (funext Place.missing?_warning?)
  · obtain ⟨path, c', hc, isRoot', w, rfl, hget', hroot', hbuild'⟩ :=
      build_of_within hmade h hn hid
    obtain rfl : c = c' := Option.some.inj (hget.symm.trans hget')
    obtain rfl : isRoot = isRoot' := Bool.eq_iff_iff.mpr (hroot.trans hroot'.symm)
    exact entries_of_build hreg hbuild'
  · rw [hwarnings] at hsplit
    obtain ⟨ps, qs, hplaces, rfl, hqs⟩ := List.filterMap_eq_append_iff.mp hsplit
    obtain ⟨silent, p, rest, rfl, hsilent, hp, -⟩ := List.filterMap_eq_cons_iff.mp hqs
    obtain ⟨_, _, -, hw⟩ | ⟨n, id, type, rfl, hid, hkind, hw⟩ :=
      Place.warning?_eq_some_iff.mp hp
    · cases hw
    · cases hw
      rw [← List.append_assoc] at hplaces
      obtain ⟨flag, front, hn, hflag, hbefore⟩ := exists_of_places hplaces
      refine ⟨n, flag, front.filterMap Place.warning?, hn, by simpa using hflag, hid, hkind, ?_⟩
      rw [← List.filterMap_append, ← hbefore, List.filterMap_append,
        List.filterMap_eq_nil_iff.mpr hsilent, List.append_nil]

/-- A widget in a page, with a gizmo of its own and gaps on both sides of it. -/
def gadgets : Assembler where
  records := .ofList
    [{ id := "root", blockType := "page" }, { id := "gadget", blockType := "widget" },
     { id := "inner", blockType := "gizmo" }, { id := "line", blockType := "text" }]
  children := ChildIndex.empty
    |>.set "root" ["gadget", "lost", "line"]
    |>.set "gadget" ["gone", "inner", "gone"]
    |>.set "inner" ["none"]

theorem gadgets_warnings :
    ∃ t, gadgets.assemble "root" = .ok t ∧
      t.warnings =
        [.unresolvedChild "gadget" "gone", .unresolvedChild "inner" "none",
         .unsupportedBlockType "inner" "gizmo", .unresolvedChild "gadget" "gone",
         .unsupportedBlockType "gadget" "widget", .unresolvedChild "root" "lost"] ∧
      t.root.postOrder.filterMap Node.unsupported? =
        [(some "inner", "gizmo"), (some "gadget", "widget")] ∧
      (gadgets.places true t.root).filterMap Place.gap? =
        [("gadget", "gone"), ("inner", "none"), ("gadget", "gone"), ("root", "lost")] := by
  have hok : (gadgets.assembleWithin 5 "root").map (·.map (·.warnings)) =
      some (.ok
        [.unresolvedChild "gadget" "gone", .unresolvedChild "inner" "none",
         .unsupportedBlockType "inner" "gizmo", .unresolvedChild "gadget" "gone",
         .unsupportedBlockType "gadget" "widget", .unresolvedChild "root" "lost"]) := rfl
  rw [assembleWithin_eq_assemble gadgets (by decide)] at hok
  cases h : gadgets.assemble "root" with
  | error e =>
    rw [h] at hok
    cases hok
  | ok t =>
    rw [h] at hok
    have hwarnings : t.warnings = _ := Except.ok.inj (Option.some.inj hok)
    obtain ⟨-, -, hunsupported, hmissing, -⟩ := assemble_warns_in_post_order gadgets rfl "root" t h
    refine ⟨t, rfl, hwarnings, ?_, ?_⟩
    · rw [← hunsupported, hwarnings]
      rfl
    · rw [← hmissing, hwarnings]
      rfl

end Assembler
end Folio
