import Folio.Assembly
import Folio.Proofs.RecordMap.Lookup

/-!
# Folio.Proofs.Assembly.Walk

The walk that builds a tree, one block and one declared child at a time.

* `build_eq_ok_iff`, `build_eq_error_iff`: all that a visit of a block can come to.
* `buildChild`: what one declared child adds. `buildAll_cons` puts it before the other children, and
  `buildChild_eq_ok_iff`, `buildChild_eq_error_iff` say all that it can come to.
* `BuiltAll`: a visit of all declared children that succeeds, child by child.
* `walk_induction`: the path of ancestors grows with each level, so that what is to be shown of a
  block on a path may be assumed of its children on the longer path.
-/

namespace Folio

namespace Assembler

variable {a : Assembler} {path : List String}

theorem dashed_of_mem_descent {isRoot : Bool} {b : Block} {id : String}
    (h : id ∈ a.descent isRoot b) : BlockId.dashed id = id := by
  unfold descent at h
  split at h
  · exact ChildIndex.dashed_of_mem_childrenOf h
  · simp at h

/-! ## One block -/

section Block

variable {b : Block} {hb : b ∈ a.records.blocks} {isRoot : Bool}

theorem build_of_mem (h : b.id ∈ path) :
    a.build path b hb isRoot = .error (.cyclicStructure b.id) := by
  rw [build]
  exact dif_pos h

theorem build_of_not_mem (h : b.id ∉ path) :
    a.build path b hb isRoot =
      match a.buildAll (b.id :: path) b.id (a.descent isRoot b) with
      | .error e => .error e
      | .ok (children, warnings) =>
        .ok (a.fillAlias (a.registry.transform b children).1,
          warnings ++ (a.registry.transform b children).2) := by
  rw [build]
  exact dif_neg h

theorem build_eq_ok_iff {n : Node} {ws : List Warning} :
    a.build path b hb isRoot = .ok (n, ws) ↔
      b.id ∉ path ∧ ∃ children warnings,
        a.buildAll (b.id :: path) b.id (a.descent isRoot b) = .ok (children, warnings) ∧
        n = a.fillAlias (a.registry.transform b children).1 ∧
        ws = warnings ++ (a.registry.transform b children).2 := by
  by_cases hp : b.id ∈ path
  · rw [build, dif_pos hp]
    simp [hp]
  · rw [build_of_not_mem hp]
    cases a.buildAll (b.id :: path) b.id (a.descent isRoot b) with
    | error e => simp
    | ok r =>
      obtain ⟨children, warnings⟩ := r
      simp [hp, eq_comm]

theorem build_eq_error_iff {e : AssemblyError} :
    a.build path b hb isRoot = .error e ↔
      (b.id ∈ path ∧ e = .cyclicStructure b.id) ∨
      (b.id ∉ path ∧ a.buildAll (b.id :: path) b.id (a.descent isRoot b) = .error e) := by
  by_cases hp : b.id ∈ path
  · rw [build, dif_pos hp]
    simp [hp, eq_comm]
  · rw [build_of_not_mem hp]
    cases a.buildAll (b.id :: path) b.id (a.descent isRoot b) with
    | error e => simp [hp]
    | ok r => simp [hp]

end Block

/-! ## One declared child -/

/-- What a declared child of a parent adds to the nodes and warnings. -/
def buildChild (a : Assembler) (path : List String) (parent id : String) :
    Except AssemblyError (List Node × List Warning) :=
  a.buildAll path parent [id]

variable {parent id : String}

theorem buildAll_nil : a.buildAll path parent [] = .ok ([], []) := by
  rw [buildAll]

theorem buildChild_of_alive {c : Block} (hget : a.records.get? id = some c)
    (hc : c.isAlive = true) (hmem : c ∈ a.records.blocks) :
    a.buildChild path parent id =
      match a.build path c hmem false with
      | .error e => .error e
      | .ok (node, warnings) => .ok ([node], warnings) := by
  rw [buildChild, buildAll]
  split
  · rename_i c' hget'
    obtain rfl : c = c' := Option.some.inj (hget.symm.trans hget')
    rw [if_pos hc, buildAll_nil]
    cases a.build path c hmem false with
    | error e => rfl
    | ok r => simp
  · rename_i hget'
    rw [hget] at hget'
    cases hget'

theorem buildChild_of_deleted {c : Block} (hget : a.records.get? id = some c)
    (hc : c.isAlive = false) : a.buildChild path parent id = .ok ([], []) := by
  rw [buildChild, buildAll]
  split
  · rename_i c' hget'
    obtain rfl : c = c' := Option.some.inj (hget.symm.trans hget')
    rw [if_neg (Bool.eq_false_iff.mp hc), buildAll_nil]
  · rename_i hget'
    rw [hget] at hget'
    cases hget'

theorem buildChild_of_missing (hget : a.records.get? id = none) :
    a.buildChild path parent id =
      match a.policy with
      | .fail => .error (.unresolvedChild parent id)
      | .skip => .ok ([], [.unresolvedChild parent id]) := by
  rw [buildChild, buildAll]
  split
  · rename_i hget'
    rw [hget] at hget'
    cases hget'
  · cases a.policy with
    | fail => rfl
    | skip => rw [buildAll_nil]

theorem buildChild_eq_ok_iff {nodes : List Node} {ws : List Warning} :
    a.buildChild path parent id = .ok (nodes, ws) ↔
      (∃ c hc n, a.records.get? id = some c ∧ c.isAlive = true ∧
        a.build path c hc false = .ok (n, ws) ∧ nodes = [n]) ∨
      (∃ c, a.records.get? id = some c ∧ c.isAlive = false ∧ nodes = [] ∧ ws = []) ∨
      (a.records.get? id = none ∧ a.policy = .skip ∧ nodes = [] ∧
        ws = [.unresolvedChild parent id]) := by
  constructor
  · intro h
    cases hget : a.records.get? id with
    | none =>
      rw [buildChild_of_missing hget] at h
      cases hp : a.policy with
      | fail => rw [hp] at h; cases h
      | skip => rw [hp] at h; cases h; exact .inr (.inr ⟨rfl, rfl, rfl, rfl⟩)
    | some c =>
      have hmem := RecordMap.mem_of_get? hget
      cases hc : c.isAlive with
      | false =>
        rw [buildChild_of_deleted hget hc] at h
        cases h
        exact .inr (.inl ⟨c, rfl, hc, rfl, rfl⟩)
      | true =>
        rw [buildChild_of_alive hget hc hmem] at h
        cases hbuild : a.build path c hmem false with
        | error e => rw [hbuild] at h; cases h
        | ok r => rw [hbuild] at h; cases h; exact .inl ⟨c, hmem, r.1, rfl, hc, hbuild, rfl⟩
  · rintro (⟨c, hmem, n, hget, hc, hbuild, rfl⟩ | ⟨c, hget, hc, rfl, rfl⟩ | ⟨hget, hp, rfl, rfl⟩)
    · rw [buildChild_of_alive hget hc hmem, hbuild]
    · exact buildChild_of_deleted hget hc
    · rw [buildChild_of_missing hget, hp]

theorem buildChild_eq_error_iff {e : AssemblyError} :
    a.buildChild path parent id = .error e ↔
      (∃ c hc, a.records.get? id = some c ∧ c.isAlive = true ∧
        a.build path c hc false = .error e) ∨
      (a.records.get? id = none ∧ a.policy = .fail ∧ e = .unresolvedChild parent id) := by
  constructor
  · intro h
    cases hget : a.records.get? id with
    | none =>
      rw [buildChild_of_missing hget] at h
      cases hp : a.policy with
      | fail => rw [hp] at h; cases h; exact .inr ⟨rfl, rfl, rfl⟩
      | skip => rw [hp] at h; cases h
    | some c =>
      have hmem := RecordMap.mem_of_get? hget
      cases hc : c.isAlive with
      | false => rw [buildChild_of_deleted hget hc] at h; cases h
      | true =>
        rw [buildChild_of_alive hget hc hmem] at h
        cases hbuild : a.build path c hmem false with
        | error e' => rw [hbuild] at h; cases h; exact .inl ⟨c, hmem, rfl, hc, hbuild⟩
        | ok r => rw [hbuild] at h; cases h
  · rintro (⟨c, hmem, hget, hc, hbuild⟩ | ⟨hget, hp, rfl⟩)
    · rw [buildChild_of_alive hget hc hmem, hbuild]
    · rw [buildChild_of_missing hget, hp]

/-! ## All declared children -/

theorem buildAll_cons (rest : List String) :
    a.buildAll path parent (id :: rest) =
      match a.buildChild path parent id with
      | .error e => .error e
      | .ok (nodes, warnings) =>
        match a.buildAll path parent rest with
        | .error e => .error e
        | .ok (others, more) => .ok (nodes ++ others, warnings ++ more) := by
  rw [buildAll]
  split
  · rename_i c hget
    have hmem := RecordMap.mem_of_get? hget
    cases hc : c.isAlive with
    | false =>
      rw [buildChild_of_deleted hget hc]
      cases a.buildAll path parent rest <;> simp
    | true =>
      rw [buildChild_of_alive hget hc hmem]
      cases a.build path c hmem false with
      | error e => rfl
      | ok r => cases a.buildAll path parent rest <;> rfl
  · rename_i hget
    rw [buildChild_of_missing hget]
    cases a.policy with
    | fail => rfl
    | skip => cases a.buildAll path parent rest <;> rfl

theorem buildAll_cons_eq_ok_iff {rest : List String} {nodes : List Node} {ws : List Warning} :
    a.buildAll path parent (id :: rest) = .ok (nodes, ws) ↔
      ∃ n w ns more, a.buildChild path parent id = .ok (n, w) ∧
        a.buildAll path parent rest = .ok (ns, more) ∧ nodes = n ++ ns ∧ ws = w ++ more := by
  rw [buildAll_cons]
  constructor
  · intro h
    cases hchild : a.buildChild path parent id with
    | error e => rw [hchild] at h; cases h
    | ok r =>
      rw [hchild] at h
      cases hrest : a.buildAll path parent rest with
      | error e => rw [hrest] at h; cases h
      | ok r' => rw [hrest] at h; cases h; exact ⟨r.1, r.2, r'.1, r'.2, rfl, rfl, rfl, rfl⟩
  · rintro ⟨n, w, ns, more, hchild, hrest, rfl, rfl⟩
    rw [hchild, hrest]

/-- A visit of declared children that succeeds, child by child: an alive child adds its node and its
warnings, a deleted one nothing, and a missing one the warning of it. -/
inductive BuiltAll (a : Assembler) (path : List String) (parent : String) :
    List String → List Node → List Warning → Prop
  | nil : BuiltAll a path parent [] [] []
  | alive {id : String} {c : Block} {hc : c ∈ a.records.blocks} {n : Node} {w : List Warning}
      {rest : List String} {nodes : List Node} {ws : List Warning}
      (hget : a.records.get? id = some c) (hlive : c.isAlive = true)
      (hbuild : a.build path c hc false = .ok (n, w))
      (hrest : BuiltAll a path parent rest nodes ws) :
      BuiltAll a path parent (id :: rest) (n :: nodes) (w ++ ws)
  | deleted {id : String} {c : Block} {rest : List String} {nodes : List Node} {ws : List Warning}
      (hget : a.records.get? id = some c) (hdead : c.isAlive = false)
      (hrest : BuiltAll a path parent rest nodes ws) :
      BuiltAll a path parent (id :: rest) nodes ws
  | missing {id : String} {rest : List String} {nodes : List Node} {ws : List Warning}
      (hget : a.records.get? id = none) (hskip : a.policy = .skip)
      (hrest : BuiltAll a path parent rest nodes ws) :
      BuiltAll a path parent (id :: rest) nodes (.unresolvedChild parent id :: ws)

theorem builtAll_of_buildAll {ids : List String} {nodes : List Node} {ws : List Warning}
    (h : a.buildAll path parent ids = .ok (nodes, ws)) : BuiltAll a path parent ids nodes ws := by
  induction ids generalizing nodes ws with
  | nil =>
    rw [buildAll_nil] at h
    cases h
    exact .nil
  | cons id rest ih =>
    obtain ⟨n, w, ns, more, hhead, hrest, rfl, rfl⟩ := buildAll_cons_eq_ok_iff.mp h
    rcases buildChild_eq_ok_iff.mp hhead with ⟨c, hc, m, hget, hlive, hbuild, rfl⟩ |
      ⟨c, hget, hdead, rfl, rfl⟩ | ⟨hget, hskip, rfl, rfl⟩
    · exact .alive hget hlive hbuild (ih hrest)
    · exact .deleted hget hdead (ih hrest)
    · exact .missing hget hskip (ih hrest)

theorem buildAll_cons_eq_error_iff {rest : List String} {e : AssemblyError} :
    a.buildAll path parent (id :: rest) = .error e ↔
      a.buildChild path parent id = .error e ∨
      ∃ n w, a.buildChild path parent id = .ok (n, w) ∧
        a.buildAll path parent rest = .error e := by
  rw [buildAll_cons]
  cases a.buildChild path parent id with
  | error e' => simp
  | ok r =>
    obtain ⟨n, w⟩ := r
    cases a.buildAll path parent rest with
    | error e' => simp
    | ok r' => simp

theorem build_of_buildAll_eq_ok {ids : List String} {nodes : List Node} {ws : List Warning}
    (h : a.buildAll path parent ids = .ok (nodes, ws)) :
    ∀ id ∈ ids, ∀ c hc, a.records.get? id = some c → c.isAlive = true →
      ∃ n w, a.build path c hc false = .ok (n, w) := by
  induction ids generalizing nodes ws with
  | nil =>
    intro id hid
    cases hid
  | cons i rest ih =>
    obtain ⟨n, w, ns, more, hchild, hrest, -, -⟩ := buildAll_cons_eq_ok_iff.mp h
    intro id hid c hc hget hlive
    rcases List.mem_cons.mp hid with rfl | hid
    · rw [buildChild_of_alive hget hlive hc] at hchild
      cases hbuild : a.build path c hc false with
      | error e => rw [hbuild] at hchild; cases hchild
      | ok r => exact ⟨r.1, r.2, rfl⟩
    · exact ih hrest id hid c hc hget hlive

theorem buildAll_eq_error {ids : List String} {e : AssemblyError}
    (h : a.buildAll path parent ids = .error e) :
    ∃ id ∈ ids,
      (∃ c hc, a.records.get? id = some c ∧ c.isAlive = true ∧
        a.build path c hc false = .error e) ∨
      (a.records.get? id = none ∧ a.policy = .fail ∧ e = .unresolvedChild parent id) := by
  induction ids with
  | nil =>
    rw [buildAll_nil] at h
    cases h
  | cons i rest ih =>
    rcases buildAll_cons_eq_error_iff.mp h with hchild | ⟨_, _, -, hrest⟩
    · exact ⟨i, List.mem_cons_self, buildChild_eq_error_iff.mp hchild⟩
    · obtain ⟨id, hid, hcause⟩ := ih hrest
      exact ⟨id, List.mem_cons_of_mem i hid, hcause⟩

/-! ## The whole walk -/

/-- What holds of a block on a path whenever it holds of the children that it descends to, on the
path with the block, holds of all blocks. Nothing is asked of the children of a block that is its
own ancestor. -/
theorem walk_induction {P : List String → Bool → Block → Prop}
    (step : ∀ path isRoot b, b ∈ a.records.blocks →
      (b.id ∉ path → ∀ id ∈ a.descent isRoot b, ∀ c, a.records.get? id = some c →
        c.isAlive = true → P (b.id :: path) false c) → P path isRoot b) :
    ∀ path isRoot b, b ∈ a.records.blocks → P path isRoot b := by
  intro path
  induction hn : a.records.unvisited path using Nat.strongRecOn generalizing path with
  | ind n ih =>
    intro isRoot b hb
    refine step path isRoot b hb fun hfresh id _ c hget _ => ?_
    have fewer : a.records.unvisited (b.id :: path) < n :=
      hn ▸ RecordMap.unvisited_cons_lt hb hfresh
    exact ih _ fewer _ rfl false c (RecordMap.mem_of_get? hget)

theorem assemble_of_missing {rootId : String} (hget : a.records.get? rootId = none) :
    a.assemble rootId = .error (.missingRecord (BlockId.dashed rootId)) := by
  rw [assemble]
  split
  · rfl
  · rename_i hget'
    rw [hget] at hget'
    cases hget'

theorem assemble_of_get? {rootId : String} {b : Block} (hget : a.records.get? rootId = some b)
    (hmem : b ∈ a.records.blocks) :
    a.assemble rootId =
      match a.build [] b hmem true with
      | .error e => .error e
      | .ok (root, warnings) => .ok { root, warnings } := by
  rw [assemble]
  split
  · rename_i hget'
    rw [hget] at hget'
    cases hget'
  · rename_i b' hget'
    obtain rfl : b = b' := Option.some.inj (hget.symm.trans hget')
    rfl

theorem assemble_eq_ok_iff {rootId : String} {t : Assembled} :
    a.assemble rootId = .ok t ↔
      ∃ b hb, a.records.get? rootId = some b ∧
        a.build [] b hb true = .ok (t.root, t.warnings) := by
  cases hget : a.records.get? rootId with
  | none =>
    rw [assemble_of_missing hget]
    simp
  | some b =>
    have hmem := RecordMap.mem_of_get? hget
    rw [assemble_of_get? hget hmem]
    cases hbuild : a.build [] b hmem true with
    | error e => simp [hbuild]
    | ok r =>
      cases t
      simp [hbuild, hmem, Prod.ext_iff]

theorem assemble_eq_error_iff {rootId : String} {e : AssemblyError} :
    a.assemble rootId = .error e ↔
      (a.records.get? rootId = none ∧ e = .missingRecord (BlockId.dashed rootId)) ∨
      ∃ b hb, a.records.get? rootId = some b ∧ a.build [] b hb true = .error e := by
  cases hget : a.records.get? rootId with
  | none =>
    rw [assemble_of_missing hget]
    simp [eq_comm]
  | some b =>
    have hmem := RecordMap.mem_of_get? hget
    rw [assemble_of_get? hget hmem]
    cases hbuild : a.build [] b hmem true with
    | error e' => simp [hbuild, hmem]
    | ok r => simp [hbuild]

end Assembler
end Folio
