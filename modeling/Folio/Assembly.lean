import Folio.ChildIndex
import Folio.Registry

/-!
# Folio.Assembly

Document trees from records. The children of a block are built before the block, and the registry
makes its node.

* A root without a record is an error.
* A child without a record is left out and reported, or it is an error: the policy decides.
* A block among its own ancestors is an error. The same block twice among siblings is not.
* A child that is marked as deleted is left out.
* Pages and aliases below the root are references, and their children are not visited.

`Assembler.assemble` builds the tree of a root. `Assembler.unresolvedIds` lists the ids without
records that the same rules of descent come to, each once and in document order.

Building ends because the path of ancestors grows by the id of a record with every level.
-/

namespace Folio

/-- What to do about a child without a record. -/
inductive MissingChildPolicy where
  | skip
  | fail
deriving DecidableEq, Repr

inductive AssemblyError where
  | missingRecord (id : String)
  | unresolvedChild (parent child : String)
  | cyclicStructure (id : String)
deriving DecidableEq, Repr

def AssemblyError.message : AssemblyError → String
  | missingRecord id => s!"Record not found: {id}"
  | unresolvedChild parent child => s!"Child {child} of {parent} not found"
  | cyclicStructure id => s!"Cyclic structure: {id} is its own ancestor"

/-- A tree and the warnings that came up while it was built. -/
structure Assembled where
  root : Node
  warnings : List Warning
deriving Repr

/-- Records and children, and the rules to build trees of them. -/
structure Assembler where
  records : RecordMap
  children : ChildIndex
  registry : Registry := .builtin
  policy : MissingChildPolicy := .skip

namespace RecordMap

/-- The number of records whose ids are not in a list. -/
def unvisited (m : RecordMap) (seen : List String) : Nat :=
  m.blocks.countP fun b => !seen.contains b.id

theorem unvisited_cons_le (m : RecordMap) (id : String) (seen : List String) :
    m.unvisited (id :: seen) ≤ m.unvisited seen := by
  refine List.countP_mono_left fun b _ h => ?_
  simp only [List.contains_cons, Bool.not_or, Bool.and_eq_true] at h
  exact h.2

theorem countP_lt_countP {p q : α → Bool} {l : List α} (imp : ∀ x ∈ l, q x → p x)
    {a : α} (ha : a ∈ l) (hp : p a) (hq : q a = false) : l.countP q < l.countP p := by
  induction l with
  | nil => simp at ha
  | cons x rest ih =>
    have hrest : rest.countP q ≤ rest.countP p :=
      List.countP_mono_left fun y hy => imp y (List.mem_cons_of_mem _ hy)
    have hx := imp x List.mem_cons_self
    rcases List.mem_cons.mp ha with rfl | ha
    · simp only [List.countP_cons, hp, hq]
      simp only [Bool.false_eq_true, if_false, if_true]
      omega
    · have := ih (fun y hy => imp y (List.mem_cons_of_mem _ hy)) ha
      have head : (if q x = true then 1 else 0) ≤ (if p x = true then 1 else 0) := by
        split <;> simp_all
      simp only [List.countP_cons]
      omega

/-- Visiting a record leaves fewer records to visit. -/
theorem unvisited_cons_lt {m : RecordMap} {b : Block} {seen : List String} (hb : b ∈ m.blocks)
    (hid : b.id ∉ seen) : m.unvisited (b.id :: seen) < m.unvisited seen := by
  refine countP_lt_countP (fun x _ h => ?_) hb ?_ ?_
  · simp only [List.contains_cons, Bool.not_or, Bool.and_eq_true] at h
    exact h.2
  · simpa using hid
  · simp

end RecordMap

namespace Assembler

/-- The declared children of a block that are visited. -/
def descent (a : Assembler) (isRoot : Bool) (b : Block) : List String :=
  if isRoot || !b.isReference then a.children.childrenOf b.id else []

/-- An alias without a title takes the title of its target. -/
def fillAlias (a : Assembler) (n : Node) : Node :=
  match n.kind with
  | .aliasOf target [] =>
    match a.records.get? target with
    | some b => { n with kind := .aliasOf target b.title }
    | none => n
  | _ => n

mutual

/-- The node of a block below a path of ancestors, and the warnings of its tree. -/
def build (a : Assembler) (path : List String) (b : Block) (_hb : b ∈ a.records.blocks)
    (isRoot : Bool) : Except AssemblyError (Node × List Warning) :=
  if _h : b.id ∈ path then .error (.cyclicStructure b.id)
  else
    match a.buildAll (b.id :: path) b.id (a.descent isRoot b) with
    | .error e => .error e
    | .ok (children, warnings) =>
      let (node, more) := a.registry.transform b children
      .ok (a.fillAlias node, warnings ++ more)
termination_by (a.records.unvisited path, 0)
decreasing_by exact Prod.Lex.left _ _ (RecordMap.unvisited_cons_lt _hb _h)

/-- The nodes of declared children of a parent, and the warnings of their trees. -/
def buildAll (a : Assembler) (path : List String) (parent : String) :
    List String → Except AssemblyError (List Node × List Warning)
  | [] => .ok ([], [])
  | id :: rest =>
    match h : a.records.get? id with
    | some child =>
      if child.isAlive then
        match a.build path child (RecordMap.mem_of_get? h) false with
        | .error e => .error e
        | .ok (node, warnings) =>
          match a.buildAll path parent rest with
          | .error e => .error e
          | .ok (nodes, more) => .ok (node :: nodes, warnings ++ more)
      else a.buildAll path parent rest
    | none =>
      match a.policy with
      | .fail => .error (.unresolvedChild parent id)
      | .skip =>
        match a.buildAll path parent rest with
        | .error e => .error e
        | .ok (nodes, warnings) => .ok (nodes, .unresolvedChild parent id :: warnings)
termination_by ids => (a.records.unvisited path, ids.length)

end

def assemble (a : Assembler) (rootId : String) : Except AssemblyError Assembled :=
  match h : a.records.get? rootId with
  | none => .error (.missingRecord (BlockId.dashed rootId))
  | some b =>
    match a.build [] b (RecordMap.mem_of_get? h) true with
    | .error e => .error e
    | .ok (root, warnings) => .ok { root, warnings }

/-- The ids without records among those still to visit and what they lead to. The flag tells the
root from other blocks. -/
def unresolvedAmong (a : Assembler) (seen : List String) : List (String × Bool) → List String
  | [] => []
  | (id, isRoot) :: rest =>
    let key := BlockId.dashed id
    if _h : key ∈ seen then a.unresolvedAmong seen rest
    else
      match _hget : a.records.get? id with
      | none => key :: a.unresolvedAmong (key :: seen) rest
      | some b =>
        if isRoot || b.isAlive then
          a.unresolvedAmong (key :: seen) ((a.descent isRoot b).map (·, false) ++ rest)
        else a.unresolvedAmong (key :: seen) rest
termination_by todo => (a.records.unvisited seen, todo.length)
decreasing_by
  · exact Prod.Lex.right _ (by simp)
  · rcases Nat.lt_or_eq_of_le (a.records.unvisited_cons_le (BlockId.dashed id) seen) with h | h
    · exact Prod.Lex.left _ _ h
    · rw [h]; exact Prod.Lex.right _ (by simp)
  · refine Prod.Lex.left _ _ ?_
    have hid := RecordMap.id_of_get? _hget
    rw [← hid]
    exact RecordMap.unvisited_cons_lt (RecordMap.mem_of_get? _hget) (hid ▸ _h)
  · rcases Nat.lt_or_eq_of_le (a.records.unvisited_cons_le (BlockId.dashed id) seen) with h | h
    · exact Prod.Lex.left _ _ h
    · rw [h]; exact Prod.Lex.right _ (by simp)

/-- The ids without records that building the tree of a root would ask for. -/
def unresolvedIds (a : Assembler) (rootId : String) : List String :=
  a.unresolvedAmong [] [(BlockId.dashed rootId, true)]

end Assembler
end Folio
