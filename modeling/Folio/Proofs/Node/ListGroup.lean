import Folio.Node.ListGroup
import Mathlib.Data.List.Chain
import Mathlib.Data.List.TakeWhile

/-!
# Folio.Proofs.Node.ListGroup

Grouping list items and taking the groups apart again.

* `ungrouped`: the nodes with each group replaced by its items.
* `ungrouped_groupItems`: grouping loses nothing and moves nothing.
* `mem_groupItems`: what stands among grouped nodes was there before, or holds what was there.
* `grouped_groupItems`, `isItemList_of_mem_groupItems`: the form that nodes have in groups, where
  there were no lists before.
-/

namespace Folio
namespace Node

/-- The items of a list that stands for no block, and any other node by itself. -/
def items (n : Node) : List Node :=
  match n.id, n.kind with
  | none, .list _ => n.children
  | _, _ => [n]

/-- The nodes with the lists that stand for no block replaced by their items. -/
def ungrouped (nodes : List Node) : List Node :=
  nodes.flatMap items

theorem items_of_id {n : Node} (h : n.id ≠ none) : n.items = [n] := by
  unfold items
  split
  · rename_i hid _
    exact absurd hid h
  · rfl

theorem groupItems_nil : groupItems [] = [] := by
  rw [groupItems]

theorem groupItems_of_other {n : Node} (h : n.kind.itemOf? = none) (rest : List Node) :
    groupItems (n :: rest) = n :: groupItems rest := by
  rw [groupItems, h]

theorem groupItems_of_item {n : Node} {kind : ListKind} (h : n.kind.itemOf? = some kind)
    (rest : List Node) :
    groupItems (n :: rest) =
      synthetic (.list kind) (n :: rest.takeWhile (isItemOf kind)) ::
        groupItems (rest.dropWhile (isItemOf kind)) := by
  rw [groupItems, h]

theorem ungrouped_groupItems {nodes : List Node} (h : ∀ n ∈ nodes, n.id ≠ none) :
    ungrouped (groupItems nodes) = nodes := by
  induction nodes using groupItems.induct with
  | case1 => rw [groupItems_nil]; rfl
  | case2 n rest hkind ih =>
    have hrest := ih fun m hm => h m (List.mem_cons_of_mem n hm)
    rw [groupItems_of_other hkind, ungrouped, List.flatMap_cons, items_of_id (h n List.mem_cons_self)]
    exact congrArg (n :: ·) hrest
  | case3 n rest kind hkind ih =>
    have hrest := ih fun m hm =>
      h m (List.mem_cons_of_mem n ((List.dropWhile_suffix (isItemOf kind)).subset hm))
    rw [groupItems_of_item hkind, ungrouped, List.flatMap_cons]
    change (n :: rest.takeWhile (isItemOf kind)) ++
      ungrouped (groupItems (rest.dropWhile (isItemOf kind))) = n :: rest
    rw [hrest, List.cons_append, List.takeWhile_append_dropWhile]

theorem mem_groupItems {nodes : List Node} {m : Node} (h : m ∈ groupItems nodes) :
    m ∈ nodes ∨ ∃ kind row, m = synthetic (.list kind) row ∧ row ⊆ nodes := by
  induction nodes using groupItems.induct with
  | case1 =>
    rw [groupItems_nil] at h
    cases h
  | case2 n rest hkind ih =>
    rw [groupItems_of_other hkind] at h
    rcases List.mem_cons.mp h with rfl | h
    · exact .inl List.mem_cons_self
    · rcases ih h with h | ⟨kind, row, rfl, hrow⟩
      · exact .inl (List.mem_cons_of_mem n h)
      · exact .inr ⟨kind, row, rfl, fun x hx => List.mem_cons_of_mem n (hrow hx)⟩
  | case3 n rest kind hkind ih =>
    have hkeep : rest.dropWhile (isItemOf kind) ⊆ rest :=
      (List.dropWhile_suffix (isItemOf kind)).subset
    have htake : rest.takeWhile (isItemOf kind) ⊆ rest :=
      (List.takeWhile_prefix (isItemOf kind)).subset
    rw [groupItems_of_item hkind] at h
    rcases List.mem_cons.mp h with rfl | h
    · exact .inr ⟨kind, _, rfl, List.cons_subset_cons n htake⟩
    · rcases ih h with h | ⟨kind', row, rfl, hrow⟩
      · exact .inl (List.mem_cons_of_mem n (hkeep h))
      · exact .inr ⟨kind', row, rfl, fun x hx => List.mem_cons_of_mem n (hkeep (hrow hx))⟩

/-! ## The form of groups -/

/-- A list that stands for no block, around items of its own kind, of which there is at least
one. -/
structure IsItemList (kind : ListKind) (n : Node) : Prop where
  id : n.id = none
  color : n.color = none
  createdTime : n.createdTime = none
  lastEditedTime : n.lastEditedTime = none
  nonempty : n.children ≠ []
  items : ∀ c ∈ n.children, ∃ text, c.kind = .listItem kind text

/-- No item stands alone, and no list is followed by one of its own kind. -/
structure Grouped (nodes : List Node) : Prop where
  noItem : ∀ n ∈ nodes, ∀ kind text, n.kind ≠ .listItem kind text
  apart : nodes.IsChain fun m n => ∀ kind, m.kind = .list kind → n.kind ≠ .list kind

variable {nodes : List Node}

theorem exists_of_itemOf?_eq_some {k : NodeKind} {kind : ListKind} (h : k.itemOf? = some kind) :
    ∃ text, k = .listItem kind text := by
  cases k with
  | listItem kind' text =>
    obtain rfl : kind' = kind := Option.some.inj h
    exact ⟨text, rfl⟩
  | _ => cases h

theorem itemOf?_of_mem_groupItems {m : Node} (hm : m ∈ groupItems nodes) :
    m.kind.itemOf? = none := by
  induction nodes using groupItems.induct with
  | case1 =>
    rw [groupItems_nil] at hm
    cases hm
  | case2 n rest hkind ih =>
    rw [groupItems_of_other hkind] at hm
    rcases List.mem_cons.mp hm with rfl | hm
    · exact hkind
    · exact ih hm
  | case3 n rest kind hkind ih =>
    rw [groupItems_of_item hkind] at hm
    rcases List.mem_cons.mp hm with rfl | hm
    · rfl
    · exact ih hm

theorem forall_mem_dropWhile {P : Node → Prop} {n : Node} {rest : List Node} (p : Node → Bool)
    (h : ∀ x ∈ n :: rest, P x) : ∀ x ∈ rest.dropWhile p, P x := by
  intro x hx
  have hrest : x ∈ rest := (List.dropWhile_suffix p).subset hx
  exact h x (List.mem_cons_of_mem n hrest)

section NoLists

-- the lists among the grouped nodes are then the ones that grouping made
variable (hplain : ∀ n ∈ nodes, ∀ kind, n.kind ≠ .list kind)
include hplain

theorem isItemList_of_mem_groupItems {m : Node} {kind : ListKind} (hm : m ∈ groupItems nodes)
    (hkind : m.kind = .list kind) : IsItemList kind m := by
  induction nodes using groupItems.induct with
  | case1 =>
    rw [groupItems_nil] at hm
    cases hm
  | case2 n rest hother ih =>
    rw [groupItems_of_other hother] at hm
    rcases List.mem_cons.mp hm with rfl | hm
    · exact absurd hkind (hplain m List.mem_cons_self kind)
    · exact ih (fun x hx => hplain x (List.mem_cons_of_mem n hx)) hm
  | case3 n rest kind' hitem ih =>
    have hdrop := forall_mem_dropWhile (isItemOf kind') hplain
    rw [groupItems_of_item hitem] at hm
    rcases List.mem_cons.mp hm with rfl | hm
    · obtain rfl : kind' = kind := NodeKind.list.inj hkind
      refine ⟨rfl, rfl, rfl, rfl, List.cons_ne_nil _ _, fun c hc => ?_⟩
      refine exists_of_itemOf?_eq_some ?_
      rcases List.mem_cons.mp hc with rfl | hc
      · exact hitem
      · have hof := List.mem_takeWhile_imp hc
        simpa [isItemOf] using hof
    · exact ih hdrop hm

/-- A list in front is a group, so that the nodes started with an item of its kind. -/
theorem head_of_head_groupItems {m : Node} {kind : ListKind}
    (hm : m ∈ (groupItems nodes).head?) (hkind : m.kind = .list kind) :
    ∃ n ∈ nodes.head?, n.kind.itemOf? = some kind := by
  cases nodes with
  | nil =>
    rw [groupItems_nil] at hm
    cases hm
  | cons n rest =>
    refine ⟨n, rfl, ?_⟩
    cases hitem : n.kind.itemOf? with
    | none =>
      rw [groupItems_of_other hitem] at hm
      obtain rfl : n = m := Option.some.inj hm
      exact absurd hkind (hplain n List.mem_cons_self kind)
    | some kind' =>
      rw [groupItems_of_item hitem] at hm
      obtain rfl := Option.some.inj hm
      exact congrArg some (NodeKind.list.inj hkind)

theorem isChain_groupItems :
    (groupItems nodes).IsChain fun m n => ∀ kind, m.kind = .list kind → n.kind ≠ .list kind := by
  induction nodes using groupItems.induct with
  | case1 =>
    rw [groupItems_nil]
    exact .nil
  | case2 n rest hother ih =>
    have hrest := ih fun x hx => hplain x (List.mem_cons_of_mem n hx)
    rw [groupItems_of_other hother, List.isChain_cons]
    exact ⟨fun m _ kind hkind => absurd hkind (hplain n List.mem_cons_self kind), hrest⟩
  | case3 n rest kind hitem ih =>
    have hdrop := forall_mem_dropWhile (isItemOf kind) hplain
    rw [groupItems_of_item hitem, List.isChain_cons]
    refine ⟨fun m hm kind' hkind' hlist => ?_, ih hdrop⟩
    -- a second list of the kind would start with an item that the first one had left over
    obtain rfl : kind = kind' := NodeKind.list.inj hkind'
    obtain ⟨x, hx, hitem'⟩ := head_of_head_groupItems hdrop hm hlist
    have hleft := List.head?_dropWhile_not (isItemOf kind) rest
    rw [Option.mem_def.mp hx] at hleft
    simp [isItemOf, hitem'] at hleft

theorem grouped_groupItems : Grouped (groupItems nodes) where
  noItem := fun m hm kind text hkind => by
    have hother := itemOf?_of_mem_groupItems hm
    rw [hkind] at hother
    cases hother
  apart := isChain_groupItems hplain

end NoLists

end Node
end Folio
