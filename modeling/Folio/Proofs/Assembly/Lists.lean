import Folio.Proofs.Assembly.Tree

/-!
# Folio.Proofs.Assembly.Lists

Lists in finished trees. No maker of nodes makes a list, so that every list in a tree comes from
grouping the children of one node, which takes place after deleted and missing children are gone.

* `kind_of_build`: the node of a block is no list.
* `lists_of_build`: the form of lists and of their surroundings all through the tree of a block.
* `assemble_groups_items`: the same for the tree of a root.
-/

namespace Folio

theorem Transformer.kindOf_ne_list (t : Transformer) (b : Block) (kind : ListKind) :
    t.kindOf b ≠ .list kind := by
  intro h
  cases t <;> cases h

theorem NodeKind.ne_list_of_typeName {k : NodeKind} (h : k.typeName = "page") (kind : ListKind) :
    k ≠ .list kind := by
  rintro rfl
  cases kind <;> exact absurd h (by decide)

theorem NodeKind.exists_list_of_typeName {k : NodeKind}
    (h : k.typeName ∈ ["bulleted_list", "numbered_list"]) : ∃ kind, k = .list kind := by
  cases k with
  | list kind => exact ⟨kind, rfl⟩
  | listItem kind text => cases kind <;> exact absurd h (by simp [typeName])
  | _ => exact absurd h (by simp [typeName])

namespace Node

/-- What is within a group is the group itself or is within one of the grouped nodes. -/
theorem within_groupItems {nodes : List Node} {m n : Node} (hm : m ∈ groupItems nodes)
    (h : Within n m) :
    (n ∈ groupItems nodes ∧ ∃ kind, n.kind = .list kind) ∨ ∃ x ∈ nodes, Within n x := by
  rcases mem_groupItems hm with hmem | ⟨kind, row, rfl, hrow⟩
  · exact .inr ⟨m, hmem, h⟩
  · rcases h.eq_or_below with rfl | ⟨c, hc, hn⟩
    · exact .inl ⟨hm, kind, rfl⟩
    · exact .inr ⟨c, hrow hc, hn⟩

end Node

namespace Assembler

open Node (Within Grouped IsItemList)

variable {a : Assembler}

theorem fillAlias_kind_ne_list {n : Node} {kind : ListKind} (h : n.kind ≠ .list kind) :
    (a.fillAlias n).kind ≠ .list kind := by
  unfold fillAlias
  split
  · split
    · exact fun hlist => nomatch hlist
    · exact h
  · exact h

theorem kind_of_build (hreg : a.registry.OfTransformers) {path : List String} {b : Block}
    {hb : b ∈ a.records.blocks} {isRoot : Bool} {n : Node} {ws : List Warning}
    (h : a.build path b hb isRoot = .ok (n, ws)) (kind : ListKind) : n.kind ≠ .list kind := by
  obtain ⟨-, nodes, -, -, rfl, -⟩ := build_eq_ok_iff.mp h
  obtain ⟨t, ht⟩ := hreg.exists_transform b nodes
  have hnode : (a.registry.transform b nodes).1.kind ≠ .list kind := by
    rw [ht]
    exact t.kindOf_ne_list b kind
  exact fillAlias_kind_ne_list hnode

theorem lists_of_build (hreg : a.registry.OfTransformers) : ∀ path isRoot b, b ∈ a.records.blocks →
    ∀ hb t ws, a.build path b hb isRoot = .ok (t, ws) → ∀ n, Within n t →
      ((∀ kind, n.kind ≠ .list kind) → Grouped n.children) ∧
      ∀ kind, n.kind = .list kind → IsItemList kind n := by
  refine walk_induction fun path isRoot b _ ih hb t ws h n hn => ?_
  obtain ⟨hoff, -⟩ := build_eq_ok_iff.mp h
  obtain ⟨-, -, -, nodes, warnings, hall, hchildren⟩ := node_of_build hreg h
  have hplain : ∀ x ∈ nodes, ∀ kind, x.kind ≠ .list kind := by
    intro x hx kind
    obtain ⟨id, -, c, hc, w, -, -, hbuild⟩ := mem_of_buildAll hall x hx
    exact kind_of_build hreg hbuild kind
  rcases hn.eq_or_below with rfl | ⟨m, hm, hnm⟩
  · refine ⟨fun _ => ?_, fun kind hkind => absurd hkind (kind_of_build hreg h kind)⟩
    rw [hchildren]
    exact Node.grouped_groupItems hplain
  · rw [hchildren] at hm
    rcases Node.within_groupItems hm hnm with ⟨hgroup, kind, hkind⟩ | ⟨x, hx, hnx⟩
    · exact ⟨fun hother => absurd hkind (hother kind),
        fun kind' hkind' => Node.isItemList_of_mem_groupItems hplain hgroup hkind'⟩
    · obtain ⟨id, hid, c, hc, w, hget, hlive, hbuild⟩ := mem_of_buildAll hall x hx
      exact ih hoff id hid c hget hlive hc x w hbuild n hnx

/-- All through the tree of a root, the children of every node that is no list are in groups: none
of them is an item, and of two lists side by side one is bulleted and the other numbered. Every list
stands for no block, has no color and no times, and holds items of its kind, at least one and
nothing else. -/
theorem assemble_groups_items (a : Assembler) (hreg : a.registry.OfTransformers) (rootId : String)
    (t : Assembled) (h : a.assemble rootId = .ok t) :
    ∀ n, Within n t.root →
      ((∀ kind, n.kind ≠ .list kind) → Grouped n.children) ∧
      ∀ kind, n.kind = .list kind → IsItemList kind n := by
  intro n hn
  obtain ⟨b, hb, -, -, hbuild⟩ := root_of_assemble hreg h
  exact lists_of_build hreg [] true b hb hb t.root t.warnings hbuild n hn

/-- A page that lists two bulleted items with a deleted text and a missing block between them, and
then a numbered item with a bulleted one below it. -/
def checklist : Assembler where
  records := .ofList
    [{ id := "root", blockType := "page" }, { id := "first", blockType := "bulleted_list" },
     { id := "old", blockType := "text", alive := some false },
     { id := "second", blockType := "bulleted_list" },
     { id := "third", blockType := "numbered_list" },
     { id := "inner", blockType := "bulleted_list" }]
  children := ChildIndex.empty
    |>.set "root" ["first", "old", "gone", "second", "third"]
    |>.set "third" ["inner"]

theorem checklist_in_two_lists :
    ∃ t, checklist.assemble "root" = .ok t ∧
      t.root.children.map (·.kind.typeName) = ["bulleted_list", "numbered_list"] ∧
      Grouped t.root.children ∧ ∀ n ∈ t.root.children, ∃ kind, IsItemList kind n := by
  have hrun : (checklist.assembleWithin 7 "root").map (·.toOption.map fun t =>
      (t.root :: t.root.children).map (·.kind.typeName)) =
        some (some ["page", "bulleted_list", "numbered_list"]) := by
    decide +kernel
  rw [assembleWithin_eq_assemble checklist (by decide)] at hrun
  cases h : checklist.assemble "root" with
  | error e =>
    rw [h] at hrun
    cases hrun
  | ok t =>
    rw [h] at hrun
    obtain ⟨hroot, hchildren⟩ := List.cons.inj (Option.some.inj (Option.some.inj hrun))
    have hgroups := assemble_groups_items checklist .builtin "root" t h
    refine ⟨t, rfl, hchildren, ?_, fun n hn => ?_⟩
    · exact (hgroups t.root (.self _)).1 (NodeKind.ne_list_of_typeName hroot)
    · have hname : n.kind.typeName ∈ ["bulleted_list", "numbered_list"] :=
        hchildren ▸ List.mem_map_of_mem hn
      obtain ⟨kind, hkind⟩ := NodeKind.exists_list_of_typeName hname
      exact ⟨kind, (hgroups n (.child hn (.self n))).2 kind hkind⟩

end Assembler
end Folio
