import Folio.Proofs.Assembly.Walk

/-!
# Folio.Proofs.Assembly.Depth

The walk as one thread of state. A single set of ancestors is carried through all branches: a block
enters it before its children are visited and leaves it after them, and warnings are added at the
end as they come up. `visit` runs that walk down to a given depth and has no result below it.

* `visit_eq_build`: the shared set is the path of the block at every visit, and the walk comes to
  what `build` says.
* `assembleWithin_eq_assemble`: no walk nests deeper than there are records, whatever the index.
-/

namespace Folio

/-- What a walk carries along: the ids that it is inside of, each once, and the warnings so far. -/
structure Walk where
  ancestors : List String := []
  warnings : List Warning := []

/-- A result with its warnings as the next state of a walk. -/
def Walk.resume (walk : Walk) :
    Except AssemblyError (α × List Warning) → Except AssemblyError (α × Walk)
  | .error e => .error e
  | .ok (x, more) => .ok (x, { walk with warnings := walk.warnings ++ more })

namespace Assembler

/-- Visits the declared children of a parent one after the other. -/
def visitAll (a : Assembler) (visit : Walk → Block → Option (Except AssemblyError (Node × Walk)))
    (parent : String) : Walk → List String → Option (Except AssemblyError (List Node × Walk))
  | walk, [] => some (.ok ([], walk))
  | walk, id :: rest =>
    match a.records.get? id with
    | some child =>
      if child.isAlive then
        match visit walk child with
        | none => none
        | some (.error e) => some (.error e)
        | some (.ok (node, walk)) =>
          match a.visitAll visit parent walk rest with
          | none => none
          | some (.error e) => some (.error e)
          | some (.ok (nodes, walk)) => some (.ok (node :: nodes, walk))
      else a.visitAll visit parent walk rest
    | none =>
      match a.policy with
      | .fail => some (.error (.unresolvedChild parent id))
      | .skip =>
        a.visitAll visit parent
          { walk with warnings := walk.warnings ++ [.unresolvedChild parent id] } rest

/-- Visits a block and all below it. There is no result if the depth does not suffice. -/
def visit (a : Assembler) :
    Nat → Walk → Block → Bool → Option (Except AssemblyError (Node × Walk))
  | 0, _, _, _ => none
  | depth + 1, walk, b, isRoot =>
    if b.id ∈ walk.ancestors then some (.error (.cyclicStructure b.id))
    else
      match a.visitAll (fun walk child => a.visit depth walk child false) b.id
          { walk with ancestors := walk.ancestors.insert b.id } (a.descent isRoot b) with
      | none => none
      | some (.error e) => some (.error e)
      | some (.ok (children, walk)) =>
        let (node, more) := a.registry.transform b children
        some (.ok (a.fillAlias node,
          { ancestors := walk.ancestors.erase b.id, warnings := walk.warnings ++ more }))

/-- The tree of a root, if the walk nests no deeper than `depth`. -/
def assembleWithin (a : Assembler) (depth : Nat) (rootId : String) :
    Option (Except AssemblyError Assembled) :=
  match a.records.get? rootId with
  | none => some (.error (.missingRecord (BlockId.dashed rootId)))
  | some b =>
    match a.visit depth {} b true with
    | none => none
    | some (.error e) => some (.error e)
    | some (.ok (root, walk)) => some (.ok { root, warnings := walk.warnings })

variable {a : Assembler}

theorem visitAll_eq_buildAll {visit : Walk → Block → Option (Except AssemblyError (Node × Walk))}
    {path : List String} {parent : String} {ids : List String}
    (hvisit : ∀ id ∈ ids, ∀ c hc, a.records.get? id = some c → c.isAlive = true →
      ∀ ws, visit ⟨path, ws⟩ c = some (Walk.resume ⟨path, ws⟩ (a.build path c hc false))) :
    ∀ ws, a.visitAll visit parent ⟨path, ws⟩ ids =
      some (Walk.resume ⟨path, ws⟩ (a.buildAll path parent ids)) := by
  induction ids with
  | nil =>
    intro ws
    rw [buildAll_nil]
    simp [visitAll, Walk.resume]
  | cons id rest ih =>
    intro ws
    have ih := ih fun id' hid' => hvisit id' (List.mem_cons_of_mem id hid')
    -- both walks split alike: the child is alive, deleted or missing
    rw [visitAll, buildAll_cons]
    split
    · rename_i c hget
      have hmem := RecordMap.mem_of_get? hget
      cases hc : c.isAlive with
      | false =>
        rw [if_neg Bool.false_ne_true, ih, buildChild_of_deleted hget hc]
        cases a.buildAll path parent rest <;> rfl
      | true =>
        rw [if_pos rfl, hvisit id List.mem_cons_self c hmem hget hc, buildChild_of_alive hget hc hmem]
        cases a.build path c hmem false with
        | error e => rfl
        | ok r =>
          simp only [Walk.resume, ih]
          cases a.buildAll path parent rest with
          | error e => rfl
          | ok r' => simp
    · rename_i hget
      rw [buildChild_of_missing hget]
      cases a.policy with
      | fail => rfl
      | skip =>
        simp only [ih]
        cases a.buildAll path parent rest with
        | error e => rfl
        | ok r => simp [Walk.resume]

/-- The shared set of ancestors is the path again when a block is left, and the walk has a result at
every depth beyond the number of records off the path. -/
theorem visit_eq_build : ∀ path isRoot b, b ∈ a.records.blocks → ∀ hb depth ws,
    a.records.unvisited path < depth →
      a.visit depth ⟨path, ws⟩ b isRoot =
        some (Walk.resume ⟨path, ws⟩ (a.build path b hb isRoot)) := by
  refine walk_induction fun path isRoot b _ ih hb depth ws hdepth => ?_
  cases depth with
  | zero => omega
  | succ depth =>
    by_cases hp : b.id ∈ path
    · rw [visit, build, if_pos hp, dif_pos hp]
      rfl
    · have fewer := RecordMap.unvisited_cons_lt hb hp
      have hall : a.visitAll (fun walk child => a.visit depth walk child false) b.id
          ⟨b.id :: path, ws⟩ (a.descent isRoot b) =
            some (Walk.resume ⟨b.id :: path, ws⟩
              (a.buildAll (b.id :: path) b.id (a.descent isRoot b))) :=
        visitAll_eq_buildAll (fun id hid c hc hget hlive ws =>
          ih hp id hid c hget hlive hc depth ws (by omega)) ws
      rw [visit, if_neg hp, build_of_not_mem hp, List.insert_of_not_mem hp, hall]
      cases a.buildAll (b.id :: path) b.id (a.descent isRoot b) with
      | error e => rfl
      | ok r => simp [Walk.resume]

/-- Every walk ends, and at a depth that only the number of records bounds. -/
theorem assembleWithin_eq_assemble (a : Assembler) {depth : Nat} (h : a.records.size < depth)
    (rootId : String) : a.assembleWithin depth rootId = some (a.assemble rootId) := by
  cases hget : a.records.get? rootId with
  | none => rw [assembleWithin, hget, assemble_of_missing hget]
  | some b =>
    have bound : a.records.unvisited [] ≤ a.records.size := List.countP_le_length
    have hmem := RecordMap.mem_of_get? hget
    have hvisit := visit_eq_build [] true b hmem hmem depth [] (by omega)
    simp only [assembleWithin, hget]
    rw [assemble_of_get? hget hmem, hvisit]
    cases a.build [] b hmem true with
    | error e => rfl
    | ok r => rfl

end Assembler
end Folio
