import Folio.Proofs.Node.ListGroup

/-!
# Folio.Proofs.Node.NormalForm

Grouped nodes are a normal form. Nodes can be cut in one way only into longest rows of items of one
kind and nodes that are no items, and grouping makes one node of each piece.

* `Piece`, `Cut`: the pieces, and a list of nodes cut into them.
* `Cut.exists_groupItems`, `Cut.unique`: every list of nodes has a cut, and only one.
* `Cut.longest`: the nodes beside a row of items are no items of its kind.
* `groupItems_append_iff`: parts are grouped apart unless a row lies across the border.
* `grouping_is_the_normal_form`: all of it, for every list of nodes.
-/

namespace Folio
namespace Node

/-- What becomes one node when nodes are grouped. -/
inductive Piece where
  /-- A node that is no item. -/
  | other (n : Node)
  /-- Items of one kind. -/
  | row (kind : ListKind) (items : List Node)

namespace Piece

def nodes : Piece → List Node
  | other n => [n]
  | row _ items => items

/-- A piece as one node: a new list around items, any other node by itself. -/
def wrapped : Piece → Node
  | other n => n
  | row kind items => synthetic (.list kind) items

/-- The kind of list that all nodes of a piece are items of. -/
def kind? : Piece → Option ListKind
  | other _ => none
  | row kind _ => some kind

/-- A piece is not empty and holds what it says. -/
def Sound (p : Piece) : Prop :=
  p.nodes ≠ [] ∧ ∀ n ∈ p.nodes, n.kind.itemOf? = p.kind?

/-- Two pieces are not both rows of one kind. -/
def Apart (p q : Piece) : Prop :=
  ∀ kind, p.kind? = some kind → q.kind? ≠ some kind

theorem exists_row {p : Piece} {kind : ListKind} (h : p.kind? = some kind) :
    ∃ items, p = row kind items := by
  cases p with
  | other n => cases h
  | row kind' items =>
    obtain rfl := Option.some.inj h
    exact ⟨items, rfl⟩

variable {ps : List Piece}

/-- The first node is of the kind of the first piece. -/
theorem head?_nodes (h : ∀ p ∈ ps, p.Sound) :
    (ps.flatMap nodes).head?.map (·.kind.itemOf?) = ps.head?.map kind? := by
  cases ps with
  | nil => rfl
  | cons p rest =>
    obtain ⟨hne, hkind⟩ := h p List.mem_cons_self
    obtain ⟨n, more, hnodes⟩ := List.exists_cons_of_ne_nil hne
    have hn := hkind n (hnodes ▸ List.mem_cons_self)
    simp [hnodes, hn]

/-- The last node is of the kind of the last piece. -/
theorem getLast?_nodes (h : ∀ p ∈ ps, p.Sound) :
    (ps.flatMap nodes).getLast?.map (·.kind.itemOf?) = ps.getLast?.map kind? := by
  rcases List.eq_nil_or_concat ps with rfl | ⟨front, p, rfl⟩
  · rfl
  · obtain ⟨hne, hkind⟩ := h p (by simp)
    obtain ⟨more, n, hnodes⟩ := (List.eq_nil_or_concat p.nodes).resolve_left hne
    have hn := hkind n (by simp [hnodes])
    simp [hnodes, hn]

end Piece

/-- The nodes are cut into pieces, no two of them rows of one kind beside each other. -/
structure Cut (xs : List Node) (ps : List Piece) : Prop where
  nodes : ps.flatMap Piece.nodes = xs
  sound : ∀ p ∈ ps, p.Sound
  apart : ps.IsChain Piece.Apart

def StartsWith (kind : ListKind) (xs : List Node) : Prop :=
  ∃ n ∈ xs.head?, n.kind.itemOf? = some kind

def EndsWith (kind : ListKind) (xs : List Node) : Prop :=
  ∃ n ∈ xs.getLast?, n.kind.itemOf? = some kind

namespace Cut

open Piece

variable {xs ys items : List Node} {p q : Piece} {ps qs : List Piece} {kind : ListKind}

theorem head (h : Cut xs ps) : xs.head?.map (·.kind.itemOf?) = ps.head?.map kind? := by
  rw [← h.nodes, head?_nodes h.sound]

theorem startsWith_iff (h : Cut xs ps) :
    StartsWith kind xs ↔ ∃ q ∈ ps.head?, q.kind? = some kind := by
  simp only [StartsWith, Option.mem_def, ← Option.map_eq_some_iff, h.head]

theorem endsWith_iff (h : Cut xs ps) :
    EndsWith kind xs ↔ ∃ p ∈ ps.getLast?, p.kind? = some kind := by
  simp only [EndsWith, Option.mem_def, ← Option.map_eq_some_iff, ← h.nodes,
    getLast?_nodes h.sound]

theorem nil : Cut [] [] := ⟨rfl, List.forall_mem_nil _, .nil⟩

theorem cons (hp : p.Sound) (h : Cut xs ps) (hne : ∀ q ∈ ps.head?, p.Apart q) :
    Cut (p.nodes ++ xs) (p :: ps) where
  nodes := by rw [List.flatMap_cons, h.nodes]
  sound := List.forall_mem_cons.mpr ⟨hp, h.sound⟩
  apart := List.isChain_cons.mpr ⟨hne, h.apart⟩

theorem append (hx : Cut xs ps) (hy : Cut ys qs)
    (h : ∀ p ∈ ps.getLast?, ∀ q ∈ qs.head?, p.Apart q) : Cut (xs ++ ys) (ps ++ qs) where
  nodes := by rw [List.flatMap_append, hx.nodes, hy.nodes]
  sound := List.forall_mem_append.mpr ⟨hx.sound, hy.sound⟩
  apart := List.isChain_append.mpr ⟨hx.apart, hy.apart, h⟩

theorem left (h : Cut xs (ps ++ qs)) : Cut (ps.flatMap Piece.nodes) ps :=
  ⟨rfl, (List.forall_mem_append.mp h.sound).1, h.apart.left_of_append⟩

theorem right (ps : List Piece) (h : Cut xs (ps ++ qs)) : Cut (qs.flatMap Piece.nodes) qs :=
  ⟨rfl, (List.forall_mem_append.mp h.sound).2, h.apart.right_of_append⟩

/-! ## Existence -/

theorem cons_other {n : Node} (hn : n.kind.itemOf? = none) (h : Cut xs ps) :
    Cut (n :: xs) (.other n :: ps) := by
  have hsound : (other n).Sound := ⟨List.cons_ne_nil n [], List.forall_mem_singleton.mpr hn⟩
  exact cons hsound h fun q _ kind hkind => absurd hkind (Option.some_ne_none kind).symm

/-- A row that is not followed by an item of its kind is a piece. -/
theorem cons_row (hne : items ≠ []) (hitems : ∀ n ∈ items, n.kind.itemOf? = some kind)
    (h : Cut xs ps) (hnext : ¬ StartsWith kind xs) : Cut (items ++ xs) (.row kind items :: ps) := by
  have hsound : (row kind items).Sound := ⟨hne, hitems⟩
  refine cons hsound h fun q hq kind' hkind hkindq => ?_
  obtain rfl : kind = kind' := Option.some.inj hkind
  exact hnext (h.startsWith_iff.mpr ⟨q, hq, hkindq⟩)

/-- Every list of nodes has a cut, and grouping makes one node of each of its pieces. -/
theorem exists_groupItems (xs : List Node) :
    ∃ ps, Cut xs ps ∧ groupItems xs = ps.map wrapped := by
  induction xs using groupItems.induct with
  | case1 => exact ⟨[], nil, groupItems_nil⟩
  | case2 n rest hother ih =>
    obtain ⟨ps, hps, hgroups⟩ := ih
    refine ⟨.other n :: ps, cons_other hother hps, ?_⟩
    rw [groupItems_of_other hother, hgroups]
    rfl
  | case3 n rest kind hitem ih =>
    obtain ⟨ps, hps, hgroups⟩ := ih
    have hitems : ∀ m ∈ n :: rest.takeWhile (isItemOf kind), m.kind.itemOf? = some kind := by
      refine List.forall_mem_cons.mpr ⟨hitem, fun m hm => ?_⟩
      simpa [isItemOf] using List.mem_takeWhile_imp hm
    have hnext : ¬ StartsWith kind (rest.dropWhile (isItemOf kind)) := by
      rintro ⟨m, hm, hmkind⟩
      have hleft := List.head?_dropWhile_not (isItemOf kind) rest
      rw [Option.mem_def.mp hm] at hleft
      simp [isItemOf, hmkind] at hleft
    have hcut := cons_row (List.cons_ne_nil _ _) hitems hps hnext
    rw [List.cons_append, List.takeWhile_append_dropWhile] at hcut
    refine ⟨_, hcut, ?_⟩
    rw [groupItems_of_item hitem, hgroups]
    rfl

/-! ## Uniqueness -/

/-- The nodes beside a row are no items of its kind. -/
theorem longest (ps : List Piece) (h : Cut xs (ps ++ .row kind items :: qs)) :
    ¬ EndsWith kind (ps.flatMap Piece.nodes) ∧ ¬ StartsWith kind (qs.flatMap Piece.nodes) := by
  obtain ⟨-, hchain, hbefore⟩ := List.isChain_append.mp h.apart
  obtain ⟨hafter, -⟩ := List.isChain_cons.mp hchain
  have hqs : Cut (qs.flatMap Piece.nodes) qs := right [.row kind items] (h.right ps)
  constructor
  · intro hends
    obtain ⟨p, hp, hpkind⟩ := h.left.endsWith_iff.mp hends
    exact hbefore p hp _ rfl kind hpkind rfl
  · intro hstarts
    obtain ⟨q, hq, hqkind⟩ := hqs.startsWith_iff.mp hstarts
    exact hafter q hq kind rfl hqkind

theorem takeWhile_eq (h : Cut xs (.row kind items :: ps)) :
    xs.takeWhile (isItemOf kind) = items := by
  obtain ⟨-, hitems⟩ := h.sound _ List.mem_cons_self
  have htake : ∀ n ∈ items, isItemOf kind n = true := fun n hn => beq_iff_eq.mpr (hitems n hn)
  have hstop : (ps.flatMap Piece.nodes).takeWhile (isItemOf kind) = [] := by
    have hnext := (longest [] h).2
    cases hrest : ps.flatMap Piece.nodes with
    | nil => rfl
    | cons n more =>
      rw [hrest] at hnext
      exact List.takeWhile_cons_of_neg fun hn => hnext ⟨n, rfl, beq_iff_eq.mp hn⟩
  have hnodes : items ++ ps.flatMap Piece.nodes = xs := h.nodes
  rw [← hnodes, List.takeWhile_append_of_pos htake, hstop, List.append_nil]

theorem head_unique (hp : Cut xs (p :: ps)) (hq : Cut xs (q :: qs)) : p = q := by
  have hkind : p.kind? = q.kind? := Option.some.inj (hp.head.symm.trans hq.head)
  cases p with
  | other n =>
    cases q with
    | other m =>
      have hnodes := hp.nodes.trans hq.nodes.symm
      exact congrArg other (List.cons.inj hnodes).1
    | row kind items => cases hkind
  | row kind items =>
    obtain ⟨items', rfl⟩ := exists_row hkind.symm
    rw [← hp.takeWhile_eq, hq.takeWhile_eq]

theorem eq_nil (h : Cut [] ps) : ps = [] := by
  have hhead := h.head
  rw [List.head?_nil, Option.map_none, eq_comm, Option.map_eq_none_iff] at hhead
  exact List.head?_eq_none_iff.mp hhead

/-- Nodes can be cut in one way only. -/
theorem unique (hp : Cut xs ps) (hq : Cut xs qs) : ps = qs := by
  induction ps generalizing xs qs with
  | nil =>
    obtain rfl : [] = xs := hp.nodes
    exact hq.eq_nil.symm
  | cons p ps ih =>
    cases qs with
    | nil =>
      obtain rfl : [] = xs := hq.nodes
      exact hp.eq_nil
    | cons q qs =>
      obtain rfl := hp.head_unique hq
      have hrest : ps.flatMap Piece.nodes = qs.flatMap Piece.nodes :=
        List.append_cancel_left (hp.nodes.trans hq.nodes.symm)
      have hqs : Cut (ps.flatMap Piece.nodes) qs := hrest ▸ right [p] hq
      rw [ih (right [p] hp) hqs]

/-- Grouped nodes are the pieces of any cut. -/
theorem groupItems_eq (h : Cut xs ps) : groupItems xs = ps.map wrapped := by
  obtain ⟨qs, hqs, hgroups⟩ := exists_groupItems xs
  rw [hgroups, hqs.unique h]

end Cut

/-! ## Parts -/

section Parts

open Piece

variable {xs ys : List Node} {kind : ListKind}

theorem groupItems_append_of_apart (h : ∀ kind, EndsWith kind xs → ¬ StartsWith kind ys) :
    groupItems (xs ++ ys) = groupItems xs ++ groupItems ys := by
  obtain ⟨ps, hps, hpgroups⟩ := Cut.exists_groupItems xs
  obtain ⟨qs, hqs, hqgroups⟩ := Cut.exists_groupItems ys
  have hborder : ∀ p ∈ ps.getLast?, ∀ q ∈ qs.head?, p.Apart q := fun p hp q hq kind hpkind hqkind =>
    h kind (hps.endsWith_iff.mpr ⟨p, hp, hpkind⟩) (hqs.startsWith_iff.mpr ⟨q, hq, hqkind⟩)
  rw [(hps.append hqs hborder).groupItems_eq, List.map_append, hpgroups, hqgroups]

/-- A row across the border is one group of the whole, and one group of each part. -/
theorem length_groupItems_append (hx : EndsWith kind xs) (hy : StartsWith kind ys) :
    (groupItems (xs ++ ys)).length + 1 = (groupItems xs ++ groupItems ys).length := by
  obtain ⟨ps, hps, hpgroups⟩ := Cut.exists_groupItems xs
  obtain ⟨qs, hqs, hqgroups⟩ := Cut.exists_groupItems ys
  obtain ⟨p, hp, hpkind⟩ := hps.endsWith_iff.mp hx
  obtain ⟨q, hq, hqkind⟩ := hqs.startsWith_iff.mp hy
  obtain ⟨as, rfl⟩ := exists_row hpkind
  obtain ⟨bs, rfl⟩ := exists_row hqkind
  obtain ⟨front, rfl⟩ := List.getLast?_eq_some_iff.mp hp
  obtain ⟨back, rfl⟩ := List.head?_eq_some_iff.mp hq
  -- the pieces on both sides of the border become one
  have hrow : Cut (as ++ bs ++ back.flatMap Piece.nodes) (.row kind (as ++ bs) :: back) := by
    obtain ⟨hne, has⟩ := (hps.right front).sound _ (List.mem_singleton_self _)
    obtain ⟨-, hbs⟩ := hqs.sound _ List.mem_cons_self
    exact Cut.cons_row (List.append_ne_nil_of_left_ne_nil hne bs)
      (List.forall_mem_append.mpr ⟨has, hbs⟩) (Cut.right [.row kind bs] hqs)
      (Cut.longest [] hqs).2
  have hborder : ∀ p ∈ front.getLast?, ∀ q ∈ (row kind (as ++ bs) :: back).head?, p.Apart q := by
    rintro p hp q ⟨⟩
    exact (List.isChain_append.mp hps.apart).2.2 p hp (.row kind as) rfl
  have hwhole := hps.left.append hrow hborder
  have hnodes : front.flatMap Piece.nodes ++ (as ++ bs ++ back.flatMap Piece.nodes) = xs ++ ys := by
    rw [← hps.nodes, ← hqs.nodes]
    simp [Piece.nodes]
  rw [← hnodes, hwhole.groupItems_eq, hpgroups, hqgroups]
  simp only [List.map_append, List.map_cons, List.length_append, List.length_cons, List.length_map,
    List.map_nil, List.length_nil]
  omega

theorem groupItems_append_iff :
    groupItems (xs ++ ys) = groupItems xs ++ groupItems ys ↔
      ∀ kind, ¬ (EndsWith kind xs ∧ StartsWith kind ys) := by
  constructor
  · rintro heq kind ⟨hx, hy⟩
    have hlength := length_groupItems_append hx hy
    rw [heq] at hlength
    exact Nat.succ_ne_self _ hlength
  · intro h
    exact groupItems_append_of_apart fun kind hx hy => h kind ⟨hx, hy⟩

end Parts

theorem groupItems_of_noItems {ns : List Node} (h : ∀ n ∈ ns, n.kind.itemOf? = none) :
    groupItems ns = ns := by
  induction ns with
  | nil => exact groupItems_nil
  | cons n rest ih =>
    obtain ⟨hn, hrest⟩ := List.forall_mem_cons.mp h
    rw [groupItems_of_other hn, ih hrest]

/-- Grouping is a normal form. The nodes can be cut in one way only into rows of items of one kind
and nodes that are no items, with no two rows of one kind beside each other. The grouped nodes are
these pieces, each row in a list of its own and all other nodes, lists among them, as they were.

* Put in order again, the pieces are the nodes.
* A row is not empty and holds only items of its kind, and the nodes just before and just behind it
  are no items of this kind.
* No item is left alone, so that grouping a second time changes nothing.
* Two parts are grouped apart just if no row lies across the border. -/
theorem grouping_is_the_normal_form (xs ys : List Node) :
    (∃ ps, Cut xs ps ∧ (∀ qs, Cut xs qs → qs = ps) ∧ groupItems xs = ps.map Piece.wrapped ∧
      ps.flatMap Piece.nodes = xs ∧
      (∀ n, .other n ∈ ps → n.kind.itemOf? = none) ∧
      ∀ front kind items back, ps = front ++ .row kind items :: back →
        items ≠ [] ∧ (∀ n ∈ items, n.kind.itemOf? = some kind) ∧
          (∀ n ∈ (front.flatMap Piece.nodes).getLast?, n.kind.itemOf? ≠ some kind) ∧
          ∀ n ∈ (back.flatMap Piece.nodes).head?, n.kind.itemOf? ≠ some kind) ∧
      (∀ n ∈ groupItems xs, n.kind.itemOf? = none) ∧
      groupItems (groupItems xs) = groupItems xs ∧
      (groupItems (xs ++ ys) = groupItems xs ++ groupItems ys ↔
        ¬ ∃ kind, (∃ n ∈ xs.getLast?, n.kind.itemOf? = some kind) ∧
          ∃ n ∈ ys.head?, n.kind.itemOf? = some kind) := by
  obtain ⟨ps, hps, hgroups⟩ := Cut.exists_groupItems xs
  have hnoItem : ∀ n ∈ groupItems xs, n.kind.itemOf? = none := fun n => itemOf?_of_mem_groupItems
  refine ⟨⟨ps, hps, fun qs hqs => hqs.unique hps, hgroups, hps.nodes, ?_, ?_⟩, hnoItem,
    groupItems_of_noItems hnoItem, ?_⟩
  · intro n hn
    exact (hps.sound _ hn).2 n List.mem_cons_self
  · rintro front kind items back rfl
    obtain ⟨hne, hitems⟩ := hps.sound (.row kind items) (by simp)
    obtain ⟨hbefore, hbehind⟩ := hps.longest front
    exact ⟨hne, hitems, fun n hn hkind => hbefore ⟨n, hn, hkind⟩,
      fun n hn hkind => hbehind ⟨n, hn, hkind⟩⟩
  · rw [groupItems_append_iff, not_exists]
    rfl

end Node
end Folio
