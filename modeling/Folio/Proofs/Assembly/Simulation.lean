import Folio.Proofs.Assembly.Missing

/-!
# Folio.Proofs.Assembly.Simulation

Two assemblers side by side. If all that a walk reads comes out alike in both, block for block, then
so do the trees, the errors and the lists of unresolved ids.

* `Alike`: how the look-ups of one child go together.
* `Follows`: a relation between the blocks that two searches stand at, which leads from each block to
  its children. `Mirrors`: the same for two walks, which read more of a block.
* `Follows.unresolvedAmong_eq`, `Mirrors.build_eq`: one state of the search, and one block.
* `Follows.unresolvedIds_eq`, `Mirrors.assemble_eq`: the search for a root, and its tree.
-/

namespace Folio

/-- Two look-ups of a child that a walk takes in the same way. Of a block that is marked as deleted
it reads nothing else. -/
inductive Alike (same : Block → Block → Prop) : Option Block → Option Block → Prop where
  | missing : Alike same none none
  | deleted {c c' : Block} (hc : c.isAlive = false) (hc' : c'.isAlive = false) :
      Alike same (some c) (some c')
  | alive {c c' : Block} (hc : c.isAlive = true) (hc' : c'.isAlive = true) (h : same c c') :
      Alike same (some c) (some c')

namespace Alike

variable {same : Block → Block → Prop} {found found' : Option Block} {c : Block}

theorem of_eq (h : found' = found) (hsame : ∀ c, found = some c → c.isAlive = true → same c c) :
    Alike same found found' := by
  subst h
  cases found' with
  | none => exact .missing
  | some c =>
    cases hlive : c.isAlive with
    | true => exact .alive hlive hlive (hsame c rfl hlive)
    | false => exact .deleted hlive hlive

theorem eq_none (h : Alike same none found') : found' = none := by
  cases h
  rfl

theorem exists_alive (h : Alike same (some c) found') (hc : c.isAlive = true) :
    ∃ c', found' = some c' ∧ c'.isAlive = true ∧ same c c' := by
  cases h with
  | deleted hdead =>
    rw [hc] at hdead
    cases hdead
  | alive _ hc' hsame => exact ⟨_, rfl, hc', hsame⟩

theorem exists_deleted (h : Alike same (some c) found') (hc : c.isAlive = false) :
    ∃ c', found' = some c' ∧ c'.isAlive = false := by
  cases h with
  | deleted _ hc' => exact ⟨_, rfl, hc'⟩
  | alive hlive =>
    rw [hc] at hlive
    cases hlive

end Alike

namespace Assembler

/-- Blocks of one assembler against blocks of another, the flag telling the root from the others.
Each two that are related have the same children to look at, which lead to related blocks. -/
structure Follows (a a' : Assembler) (same : Bool → Block → Block → Prop) : Prop where
  id : ∀ {isRoot b b'}, same isRoot b b' → b'.id = b.id
  descent : ∀ {isRoot b b'}, same isRoot b b' → a'.descent isRoot b' = a.descent isRoot b
  child : ∀ {isRoot b b'}, same isRoot b b' → ∀ id ∈ a.descent isRoot b,
    Alike (same false) (a.records.get? id) (a'.records.get? id)

/-- Blocks that are related make the same nodes besides. -/
structure Mirrors (a a' : Assembler) (same : Bool → Block → Block → Prop) : Prop
    extends Follows a a' same where
  policy : a'.policy = a.policy
  node : ∀ {isRoot b b'}, same isRoot b b' → ∀ children,
    a'.fillAlias (a'.registry.transform b' children).1 =
      a.fillAlias (a.registry.transform b children).1
  report : ∀ {isRoot b b'}, same isRoot b b' → ∀ children,
    (a'.registry.transform b' children).2 = (a.registry.transform b children).2

variable {a a' : Assembler} {same : Bool → Block → Block → Prop}

/-! ## The search -/

namespace Follows

theorem unresolvedAmong_eq (hf : Follows a a' same) (seen : List String)
    (todo : List (String × Bool)) :
    (∀ e ∈ todo, e.2 = false ∧ Alike (same false) (a.records.get? e.1) (a'.records.get? e.1)) →
      a'.unresolvedAmong seen todo = a.unresolvedAmong seen todo := by
  -- in each case the other search takes the same branch, as the two look-ups end alike
  induction seen, todo using unresolvedAmong.induct a with
  | case1 seen =>
    intro _
    rw [unresolvedAmong_nil, unresolvedAmong_nil]
  | case2 seen id isRoot rest key hseen ih =>
    intro htodo
    rw [unresolvedAmong_of_seen hseen, unresolvedAmong_of_seen hseen]
    exact ih fun e he => htodo e (List.mem_cons_of_mem _ he)
  | case3 seen id isRoot rest key hseen hget ih =>
    intro htodo
    obtain ⟨-, hlook⟩ := htodo (id, isRoot) List.mem_cons_self
    rw [hget] at hlook
    rw [unresolvedAmong_of_missing hseen hget, unresolvedAmong_of_missing hseen hlook.eq_none]
    exact congrArg _ (ih fun e he => htodo e (List.mem_cons_of_mem _ he))
  | case4 seen id isRoot rest key hseen b hget hopen ih =>
    intro htodo
    obtain ⟨hchild, hlook⟩ := htodo (id, isRoot) List.mem_cons_self
    obtain rfl : isRoot = false := hchild
    rw [hget] at hlook
    obtain ⟨b', hget', hopen', hsame⟩ := hlook.exists_alive hopen
    rw [unresolvedAmong_of_open hseen hget hopen,
      unresolvedAmong_of_open hseen hget' ((Bool.false_or _).trans hopen'), hf.descent hsame]
    refine ih fun e he => ?_
    rcases List.mem_append.mp he with he | he
    · obtain ⟨c, hc, rfl⟩ := List.mem_map.mp he
      exact ⟨rfl, hf.child hsame c hc⟩
    · exact htodo e (List.mem_cons_of_mem _ he)
  | case5 seen id isRoot rest key hseen b hget hclosed ih =>
    intro htodo
    obtain ⟨hchild, hlook⟩ := htodo (id, isRoot) List.mem_cons_self
    obtain rfl : isRoot = false := hchild
    have hdead := Bool.eq_false_iff.mpr hclosed
    rw [hget] at hlook
    obtain ⟨b', hget', hdead'⟩ := hlook.exists_deleted hdead
    rw [unresolvedAmong_of_deleted hseen hget hdead,
      unresolvedAmong_of_deleted hseen hget' ((Bool.false_or _).trans hdead')]
    exact ih fun e he => htodo e (List.mem_cons_of_mem _ he)

theorem unresolvedIds_eq (hf : Follows a a' same) {rootId : String}
    (hroot : Option.Rel (same true) (a.records.get? rootId) (a'.records.get? rootId)) :
    a'.unresolvedIds rootId = a.unresolvedIds rootId := by
  generalize hget : a.records.get? rootId = found at hroot
  generalize hget' : a'.records.get? rootId = found' at hroot
  cases hroot with
  | none => rw [unresolvedIds_of_missing hget, unresolvedIds_of_missing hget']
  | some hsame =>
    rw [unresolvedIds_of_get? hget, unresolvedIds_of_get? hget', hf.id hsame, hf.descent hsame,
      List.append_nil]
    refine hf.unresolvedAmong_eq _ _ fun e he => ?_
    obtain ⟨c, hc, rfl⟩ := List.mem_map.mp he
    exact ⟨rfl, hf.child hsame c hc⟩

end Follows

/-! ## The walk -/

/-- Of the target of an alias only the title is read. -/
theorem fillAlias_congr {n : Node} (h : ∀ target, n.kind = .aliasOf target [] →
    (a'.records.get? target).map (·.title) = (a.records.get? target).map (·.title)) :
    a'.fillAlias n = a.fillAlias n := by
  unfold fillAlias
  split
  · rename_i target hkind
    have htitle := h target hkind
    cases hget : a.records.get? target with
    | none =>
      rw [hget, Option.map_none, Option.map_eq_none_iff] at htitle
      rw [htitle]
    | some b =>
      rw [hget, Option.map_some, Option.map_eq_some_iff] at htitle
      obtain ⟨b', hget', htitle⟩ := htitle
      simp only [hget', htitle]
  · rfl

theorem buildAll_congr {path : List String} {parent : String} {ids : List String}
    (h : ∀ id ∈ ids, a'.buildChild path parent id = a.buildChild path parent id) :
    a'.buildAll path parent ids = a.buildAll path parent ids := by
  induction ids with
  | nil => rw [buildAll_nil, buildAll_nil]
  | cons id rest ih =>
    have hrest := ih fun x hx => h x (List.mem_cons_of_mem id hx)
    rw [buildAll_cons, buildAll_cons, h id List.mem_cons_self, hrest]

namespace Mirrors

theorem buildChild_eq (hm : Mirrors a a' same) {path : List String} {parent id : String}
    (hlook : Alike (same false) (a.records.get? id) (a'.records.get? id))
    (hbuild : ∀ c c' hc hc', a.records.get? id = some c → c.isAlive = true → same false c c' →
      a'.build path c' hc' false = a.build path c hc false) :
    a'.buildChild path parent id = a.buildChild path parent id := by
  generalize hget : a.records.get? id = found at hlook
  generalize hget' : a'.records.get? id = found' at hlook
  cases hlook with
  | missing =>
    rw [buildChild_of_missing hget, buildChild_of_missing hget', hm.policy]
  | deleted hc hc' =>
    rw [buildChild_of_deleted hget hc, buildChild_of_deleted hget' hc']
  | alive hc hc' hsame =>
    have hmem := RecordMap.mem_of_get? hget
    have hmem' := RecordMap.mem_of_get? hget'
    rw [buildChild_of_alive hget hc hmem, buildChild_of_alive hget' hc' hmem',
      hbuild _ _ hmem hmem' hget hc hsame]

theorem build_eq (hm : Mirrors a a' same) : ∀ path isRoot b, b ∈ a.records.blocks →
    ∀ b' hb hb', same isRoot b b' → a'.build path b' hb' isRoot = a.build path b hb isRoot := by
  refine walk_induction fun path isRoot b _ ih b' hb hb' hsame => ?_
  -- the ids are the same, so the two paths are, and a cycle closes in both or in neither
  have hid := hm.id hsame
  by_cases hp : b.id ∈ path
  · rw [build_of_mem hp, build_of_mem (hid.symm ▸ hp), hid]
  · have hall : a'.buildAll (b.id :: path) b.id (a.descent isRoot b) =
        a.buildAll (b.id :: path) b.id (a.descent isRoot b) :=
      buildAll_congr fun id hid => hm.buildChild_eq (hm.child hsame id hid)
        fun c c' hc hc' hget hlive hsame' => ih hp id hid c hget hlive c' hc hc' hsame'
    rw [build_of_not_mem hp, build_of_not_mem (hid.symm ▸ hp), hid, hm.descent hsame, hall]
    cases a.buildAll (b.id :: path) b.id (a.descent isRoot b) with
    | error e => rfl
    | ok r =>
      obtain ⟨children, warnings⟩ := r
      simp only [hm.node hsame, hm.report hsame]

theorem assemble_eq (hm : Mirrors a a' same) {rootId : String}
    (hroot : Option.Rel (same true) (a.records.get? rootId) (a'.records.get? rootId)) :
    a'.assemble rootId = a.assemble rootId := by
  generalize hget : a.records.get? rootId = found at hroot
  generalize hget' : a'.records.get? rootId = found' at hroot
  cases hroot with
  | none => rw [assemble_of_missing hget, assemble_of_missing hget']
  | @some b b' hsame =>
    have hmem := RecordMap.mem_of_get? hget
    have hmem' := RecordMap.mem_of_get? hget'
    rw [assemble_of_get? hget hmem, assemble_of_get? hget' hmem',
      hm.build_eq [] true b hmem b' hmem hmem' hsame]

end Mirrors
end Assembler
end Folio
