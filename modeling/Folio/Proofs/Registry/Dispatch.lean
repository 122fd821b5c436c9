import Folio.Proofs.Text.Order
import Folio.Registry

/-!
# Folio.Proofs.Registry.Dispatch

Which transformer makes the node of a block. Transformers are registered one after another; for each
block type the last one counts, then the one that was there to begin with, then none.

* `Registry.registerAll`, `Registry.Start`: registering in a row, and where it starts.
* `Registry.find?_registerAll`: what is found for a block type.
* `Registry.tags_congr`: the listed block types are those that are registered.
* `transform_of_registrations`: the node and the warning of a block, whatever was registered.
-/

namespace Folio
namespace Registry

/-- A registry with transformers registered one after another. -/
def registerAll (r : Registry) (entries : List (String × Transformer)) : Registry :=
  entries.foldl (fun r e => r.register e.1 e.2.node) r

/-- The registries that there are to begin with. -/
inductive Start where
  | builtin
  | empty
deriving DecidableEq, Repr

namespace Start

def registry : Start → Registry
  | builtin => .builtin
  | empty => .empty

def transformers : Start → List (String × Transformer)
  | builtin => builtinTransformers
  | empty => []

/-- The transformer that counts for a block type: the last one that was registered for it, or else
the one that was there to begin with. -/
def chosen? (start : Start) (entries : List (String × Transformer)) (tag : String) :
    Option Transformer :=
  ((entries.filter (·.1 == tag)).getLast?.map (·.2)).or (start.transformers.lookup tag)

end Start

/-! ## Finding a transformer -/

theorem find?_register (r : Registry) (tag : String) (make : NodeMaker) (tag' : String) :
    (r.register tag make).find? tag' = if tag' = tag then some make else r.find? tag' := by
  unfold find? register
  rw [List.lookup_cons]
  by_cases h : tag' = tag
  · simp [h]
  · simp [h, beq_false_of_ne h]

theorem find?_registerAll (r : Registry) (entries : List (String × Transformer)) (tag : String) :
    (r.registerAll entries).find? tag =
      ((entries.filter (·.1 == tag)).getLast?.map fun e => e.2.node).or (r.find? tag) := by
  induction entries generalizing r with
  | nil => rfl
  | cons e rest ih =>
    have hfirst : (r.registerAll (e :: rest)).find? tag =
        ((r.register e.1 e.2.node).registerAll rest).find? tag := rfl
    rw [hfirst, ih, find?_register, List.filter_cons]
    by_cases h : e.1 = tag
    · subst h
      cases hlast : (rest.filter (·.1 == e.1)).getLast? <;> simp [List.getLast?_cons, hlast]
    · simp [h, Ne.symm h]

theorem lookup_map_node (entries : List (String × Transformer)) (tag : String) :
    (entries.map fun e => (e.1, e.2.node)).lookup tag =
      (entries.lookup tag).map Transformer.node := by
  induction entries with
  | nil => rfl
  | cons e rest ih =>
    rw [List.map_cons, List.lookup_cons, List.lookup_cons, ih]
    cases tag == e.1 <;> rfl

theorem find?_start (start : Start) (tag : String) :
    start.registry.find? tag = (start.transformers.lookup tag).map Transformer.node := by
  cases start with
  | builtin => exact lookup_map_node builtinTransformers tag
  | empty => rfl

theorem find?_chosen (start : Start) (entries : List (String × Transformer)) (tag : String) :
    (start.registry.registerAll entries).find? tag =
      (start.chosen? entries tag).map Transformer.node := by
  rw [find?_registerAll, find?_start, Start.chosen?]
  cases (entries.filter (·.1 == tag)).getLast? <;> rfl

/-! ## Registries with the same entries -/

theorem nodup_eraseDups : ∀ l : List String, l.eraseDups.Nodup
  | [] => by simp
  | s :: rest => by
    rw [List.eraseDups_cons, List.nodup_cons]
    exact ⟨by simp [List.mem_eraseDups], nodup_eraseDups _⟩
termination_by l => l.length
decreasing_by
  have := List.length_filter_le (fun t => !t == s) rest
  simp only [List.length_cons]
  omega

theorem mem_tags_iff (r : Registry) (tag : String) :
    tag ∈ r.tags ↔ r.isRegistered tag = true := by
  rw [tags, List.mem_mergeSort, List.mem_eraseDups, isRegistered, find?, List.lookup_isSome_iff,
    List.mem_map]
  exact exists_congr fun e => by rw [beq_iff_eq, eq_comm]

theorem tags_congr {r s : Registry} (h : r.find? = s.find?) : r.tags = s.tags := by
  have hmem (tag : String) : tag ∈ r.tags ↔ tag ∈ s.tags := by
    rw [mem_tags_iff, mem_tags_iff, isRegistered, isRegistered, h]
  have hsorted (r : Registry) : r.tags.Pairwise (· < ·) :=
    Text.pairwise_mergeSort (nodup_eraseDups _)
  exact Text.eq_of_pairwise_lt (hsorted r) (hsorted s) hmem

/-- Registrations for different block types can change places. -/
theorem find?_registerAll_swap (r : Registry) (before after : List (String × Transformer))
    {tag tag' : String} (hne : tag ≠ tag') (t t' : Transformer) :
    (r.registerAll (before ++ (tag, t) :: (tag', t') :: after)).find? =
      (r.registerAll (before ++ (tag', t') :: (tag, t) :: after)).find? := by
  funext other
  rw [find?_registerAll, find?_registerAll, List.filter_append, List.filter_append]
  have hpair : ((tag, t) :: (tag', t') :: after).filter (·.1 == other) =
      ((tag', t') :: (tag, t) :: after).filter (·.1 == other) := by
    by_cases h : tag = other
    · have h' : tag' ≠ other := fun h' => hne (h.trans h'.symm)
      simp [h, h']
    · simp [List.filter_cons, h]
  rw [hpair]

/-! ## Nodes and reports -/

theorem transform_eq (start : Start) (entries : List (String × Transformer)) (b : Block)
    (children : List Node) :
    (start.registry.registerAll entries).transform b children =
      (((start.chosen? entries b.blockType).getD .unsupported).node b (Node.groupItems children),
        if (start.chosen? entries b.blockType).isSome then []
        else [.unsupportedBlockType b.id b.blockType]) := by
  rw [transform, find?_chosen]
  cases start.chosen? entries b.blockType <;> rfl

/-- What the nodes of all transformers have in common. -/
theorem node_frame (t : Transformer) (b : Block) (children : List Node) :
    (t.node b children).id = some b.id ∧
      (t.node b children).createdTime = b.createdTime ∧
      (t.node b children).lastEditedTime = b.lastEditedTime ∧
      (t.node b children).color = (if b.blockType = "alias" then none
        else (b.formatString? "block_color").bind ThemeColor.parse?) ∧
      (t.node b children).children = children := by
  refine ⟨rfl, rfl, rfl, ?_, rfl⟩
  change b.colorToken?.bind ThemeColor.parse? = _
  by_cases halias : b.blockType = "alias"
  · simp [Block.colorToken?, Block.isAlias, halias]
  · simp [Block.colorToken?, Block.isAlias, halias]

end Registry

open Registry in
/-- Whatever transformers were registered, the node of a block is made by the last one for its type,
by the one that was there to begin with if there is none, and is an unsupported node otherwise; only
then is there a report, behind those that were collected before. The node has the id and the times
of the block, its color unless it is an alias, and the grouped children. Registrations for different
types can change places. -/
theorem transform_of_registrations (start : Start) :
    (∀ (entries : List (String × Transformer)) (b : Block) (children : List Node)
        (collected : List Warning),
      let r := start.registry.registerAll entries
      let n := (r.transform b children).1
      let chosen := start.chosen? entries b.blockType
      n = (chosen.getD .unsupported).node b (Node.groupItems children) ∧
        (chosen = none → n.kind = .unsupported b.blockType) ∧
        collected ++ (r.transform b children).2 =
          (if chosen.isSome then collected
            else collected ++ [.unsupportedBlockType b.id b.blockType]) ∧
        n.id = some b.id ∧ n.createdTime = b.createdTime ∧ n.lastEditedTime = b.lastEditedTime ∧
        n.color = (if b.blockType = "alias" then none
          else (b.formatString? "block_color").bind ThemeColor.parse?) ∧
        n.children = Node.groupItems children) ∧
      ∀ (before after : List (String × Transformer)) (tag tag' : String) (t t' : Transformer),
        tag ≠ tag' →
          let r := start.registry.registerAll (before ++ (tag, t) :: (tag', t') :: after)
          let s := start.registry.registerAll (before ++ (tag', t') :: (tag, t) :: after)
          r.transform = s.transform ∧ r.isRegistered = s.isRegistered ∧ r.tags = s.tags := by
  constructor
  · intro entries b children collected r n chosen
    have htransform := transform_eq start entries b children
    have hnode : n = (chosen.getD .unsupported).node b (Node.groupItems children) :=
      congrArg Prod.fst htransform
    have hreport : (r.transform b children).2 =
        if chosen.isSome then [] else [.unsupportedBlockType b.id b.blockType] :=
      congrArg Prod.snd htransform
    refine ⟨hnode, ?_, ?_, hnode ▸ node_frame _ b _⟩
    · intro hnone
      rw [hnode, hnone]
      rfl
    · rw [hreport]
      cases chosen <;> simp
  · intro before after tag tag' t t' hne r s
    have hfind : r.find? = s.find? :=
      find?_registerAll_swap start.registry before after hne t t'
    refine ⟨?_, ?_, tags_congr hfind⟩
    · funext b children
      rw [transform, transform, hfind]
    · funext tag
      rw [isRegistered, isRegistered, hfind]

open Registry in
theorem widget_is_unsupported :
    let r := Start.empty.registry.registerAll [("text", .quote), ("page", .text)]
    let s := Start.empty.registry.registerAll [("page", .text), ("text", .quote)]
    Start.empty.chosen? [("text", .quote), ("page", .text)] "widget" = none ∧
      (r.transform { id := "b1", blockType := "widget" } []).1.kind = .unsupported "widget" ∧
      "text" ≠ "page" ∧ r.transform = s.transform := by
  intro r s
  have hnone : Start.empty.chosen? [("text", .quote), ("page", .text)] "widget" = none := by decide
  have hne : "text" ≠ "page" := by decide
  obtain ⟨hnodes, hswap⟩ := transform_of_registrations .empty
  obtain ⟨-, hkind, -⟩ := hnodes [("text", .quote), ("page", .text)]
    { id := "b1", blockType := "widget" } [] []
  exact ⟨hnone, hkind hnone, hne, (hswap [] [] "text" "page" .quote .text hne).1⟩

/-- The last registration counts, before the one that was there to begin with. -/
example : Registry.Start.builtin.chosen? [("text", .toggle), ("code", .text), ("text", .quote)]
    "text" = some .quote := by decide

end Folio
