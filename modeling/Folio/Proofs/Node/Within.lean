import Folio.Node

/-!
# Folio.Proofs.Node.Within

The parts of a tree. A node is within a tree if it is the tree itself or is within one of its
children. What is below a node is smaller than the node.
-/

namespace Folio
namespace Node

/-- `Within n t`: the tree `n` is a part of the tree `t`, which may be all of it. -/
inductive Within : Node → Node → Prop where
  | self (t : Node) : Within t t
  | child {n c t : Node} : c ∈ t.children → Within n c → Within n t

/-- `Below n t`: the tree `n` is a part of the tree `t`, and not all of it. -/
def Below (n t : Node) : Prop :=
  ∃ c ∈ t.children, Within n c

theorem Within.eq_or_below {n t : Node} (h : Within n t) : n = t ∨ Below n t := by
  cases h with
  | self => exact .inl rfl
  | child hc hn => exact .inr ⟨_, hc, hn⟩

theorem Within.trans {m n t : Node} (h : Within m n) (h' : Within n t) : Within m t := by
  induction h' with
  | self => exact h
  | child hc _ ih => exact .child hc ih

/-! ## Sizes -/

theorem sizeOf_child_lt {c t : Node} (h : c ∈ t.children) : sizeOf c < sizeOf t := by
  have hlt := List.sizeOf_lt_of_mem h
  cases t
  simp only [Node.mk.sizeOf_spec] at hlt ⊢
  omega

theorem Within.sizeOf_le {n t : Node} (h : Within n t) : sizeOf n ≤ sizeOf t := by
  induction h with
  | self => exact Nat.le_refl _
  | child hc _ ih => exact Nat.le_of_lt (Nat.lt_of_le_of_lt ih (sizeOf_child_lt hc))

theorem Below.sizeOf_lt {n t : Node} (h : Below n t) : sizeOf n < sizeOf t := by
  obtain ⟨c, hc, hn⟩ := h
  exact Nat.lt_of_le_of_lt hn.sizeOf_le (sizeOf_child_lt hc)

/-! ## Induction -/

/-- What holds of a node whenever it holds of its children holds of all nodes. -/
theorem induction {P : Node → Prop} (step : ∀ n, (∀ c ∈ n.children, P c) → P n) : ∀ n, P n
  | ⟨_, _, _, _, _, children⟩ => step _ fun c (_ : c ∈ children) => induction step c

end Node
end Folio
