import Folio.Proofs.Assembly.Walk

/-!
# Folio.Proofs.Assembly.Search

The search for missing records as a machine with a stack. In each round the top is taken off. What
was seen before is dropped; a missing record is noted; the children of a record that is descended
into are pushed, the last one first.

* `run_eq_unresolvedAmong`: from every state the stack runs empty, whatever the index, and what was
  noted by then is what `unresolvedAmong` lists.
* `nodup_unresolvedAmong`: nothing is noted twice.
-/

namespace Folio
namespace Assembler

variable {a : Assembler} {seen : List String} {id : String} {isRoot : Bool}
  {rest : List (String × Bool)}

theorem unresolvedAmong_nil : a.unresolvedAmong seen [] = [] := by
  rw [unresolvedAmong]

theorem unresolvedAmong_of_seen (h : BlockId.dashed id ∈ seen) :
    a.unresolvedAmong seen ((id, isRoot) :: rest) = a.unresolvedAmong seen rest := by
  rw [unresolvedAmong, dif_pos h]

theorem unresolvedAmong_of_missing (h : BlockId.dashed id ∉ seen)
    (hget : a.records.get? id = none) :
    a.unresolvedAmong seen ((id, isRoot) :: rest) =
      BlockId.dashed id :: a.unresolvedAmong (BlockId.dashed id :: seen) rest := by
  rw [unresolvedAmong, dif_neg h]
  split
  · rfl
  · rename_i hget'
    rw [hget] at hget'
    cases hget'

theorem unresolvedAmong_of_open {b : Block} (h : BlockId.dashed id ∉ seen)
    (hget : a.records.get? id = some b) (hopen : (isRoot || b.isAlive) = true) :
    a.unresolvedAmong seen ((id, isRoot) :: rest) =
      a.unresolvedAmong (BlockId.dashed id :: seen)
        ((a.descent isRoot b).map (·, false) ++ rest) := by
  rw [unresolvedAmong, dif_neg h]
  split
  · rename_i hget'
    rw [hget] at hget'
    cases hget'
  · rename_i b' hget'
    obtain rfl : b = b' := Option.some.inj (hget.symm.trans hget')
    rw [if_pos hopen]

theorem unresolvedAmong_of_deleted {b : Block} (h : BlockId.dashed id ∉ seen)
    (hget : a.records.get? id = some b) (hclosed : (isRoot || b.isAlive) = false) :
    a.unresolvedAmong seen ((id, isRoot) :: rest) =
      a.unresolvedAmong (BlockId.dashed id :: seen) rest := by
  rw [unresolvedAmong, dif_neg h]
  split
  · rename_i hget'
    rw [hget] at hget'
    cases hget'
  · rename_i b' hget'
    obtain rfl : b = b' := Option.some.inj (hget.symm.trans hget')
    rw [if_neg (Bool.eq_false_iff.mp hclosed)]

section Child

-- a child is no root, and the index has its id in the dashed spelling
variable (hdashed : BlockId.dashed id = id) (h : id ∉ seen)
include hdashed h

theorem unresolvedAmong_child_of_missing (hget : a.records.get? id = none) :
    a.unresolvedAmong seen ((id, false) :: rest) =
      id :: a.unresolvedAmong (id :: seen) rest := by
  rw [unresolvedAmong_of_missing (by rwa [hdashed]) hget, hdashed]

theorem unresolvedAmong_child_of_alive {b : Block} (hget : a.records.get? id = some b)
    (hlive : b.isAlive = true) :
    a.unresolvedAmong seen ((id, false) :: rest) =
      a.unresolvedAmong (id :: seen) ((a.descent false b).map (·, false) ++ rest) := by
  have hopen : (false || b.isAlive) = true := hlive
  rw [unresolvedAmong_of_open (by rwa [hdashed]) hget hopen, hdashed]

theorem unresolvedAmong_child_of_deleted {b : Block} (hget : a.records.get? id = some b)
    (hdead : b.isAlive = false) :
    a.unresolvedAmong seen ((id, false) :: rest) = a.unresolvedAmong (id :: seen) rest := by
  have hclosed : (false || b.isAlive) = false := hdead
  rw [unresolvedAmong_of_deleted (by rwa [hdashed]) hget hclosed, hdashed]

end Child

/-- What is noted was not seen before, and is noted once. -/
theorem nodup_unresolvedAmong (seen : List String) (todo : List (String × Bool)) :
    (a.unresolvedAmong seen todo).Nodup ∧ ∀ id ∈ a.unresolvedAmong seen todo, id ∉ seen := by
  induction seen, todo using unresolvedAmong.induct a with
  | case1 seen =>
    rw [unresolvedAmong_nil]
    exact ⟨List.nodup_nil, fun id hid => nomatch hid⟩
  | case2 seen id isRoot rest key hseen ih =>
    rw [unresolvedAmong_of_seen hseen]
    exact ih
  | case3 seen id isRoot rest key hseen hget ih =>
    rw [unresolvedAmong_of_missing hseen hget, List.nodup_cons]
    obtain ⟨hnodup, hnew⟩ := ih
    refine ⟨⟨fun hkey => hnew key hkey List.mem_cons_self, hnodup⟩, fun x hx => ?_⟩
    rcases List.mem_cons.mp hx with rfl | hx
    · exact hseen
    · exact fun hxs => hnew x hx (List.mem_cons_of_mem key hxs)
  | case4 seen id isRoot rest key hseen b hget hopen ih =>
    rw [unresolvedAmong_of_open hseen hget hopen]
    exact ⟨ih.1, fun x hx hxs => ih.2 x hx (List.mem_cons_of_mem key hxs)⟩
  | case5 seen id isRoot rest key hseen b hget hclosed ih =>
    rw [unresolvedAmong_of_deleted hseen hget (Bool.eq_false_iff.mpr hclosed)]
    exact ⟨ih.1, fun x hx hxs => ih.2 x hx (List.mem_cons_of_mem key hxs)⟩

end Assembler

/-! ## The machine -/

/-- A state of the search: the ids it has seen, the ids still to look at with a mark for the root,
the top of the stack in front, and the missing ids in the order they were noted. -/
structure Search where
  seen : List String
  stack : List (String × Bool)
  missing : List String

namespace Search

def start (rootId : String) : Search :=
  { seen := [], stack := [(BlockId.dashed rootId, true)], missing := [] }

def next (a : Assembler) (s : Search) : Search :=
  match s.stack with
  | [] => s
  | (id, isRoot) :: rest =>
    if id ∈ s.seen then { s with stack := rest }
    else
      match a.records.get? id with
      | none => { seen := id :: s.seen, stack := rest, missing := s.missing ++ [id] }
      | some b =>
        if isRoot || b.isAlive then
          { s with
            seen := id :: s.seen
            stack := (a.descent isRoot b).reverse.foldl (fun stack id => (id, false) :: stack) rest }
        else { s with seen := id :: s.seen, stack := rest }

def run (a : Assembler) : Nat → Search → Search
  | 0, s => s
  | n + 1, s => run a n (s.next a)

/-- Children that are pushed from the last to the first come off in their order. -/
theorem foldl_push (ids : List String) (rest : List (String × Bool)) :
    ids.reverse.foldl (fun stack id => (id, false) :: stack) rest =
      ids.map (·, false) ++ rest := by
  rw [List.foldl_reverse]
  induction ids with
  | nil => rfl
  | cons id ids ih => rw [List.foldr_cons, ih]; rfl

/-- The stack runs empty from every state that holds dashed ids. -/
theorem run_eq_unresolvedAmong (a : Assembler) (seen : List String) (stack : List (String × Bool)) :
    (∀ e ∈ stack, BlockId.dashed e.1 = e.1) → ∀ missing, ∃ n seen',
      run a n ⟨seen, stack, missing⟩ = ⟨seen', [], missing ++ a.unresolvedAmong seen stack⟩ := by
  -- one round for each call, as a dashed id is the key that it is seen under
  induction seen, stack using Assembler.unresolvedAmong.induct a with
  | case1 seen =>
    intro _ missing
    refine ⟨0, seen, ?_⟩
    rw [Assembler.unresolvedAmong_nil, List.append_nil]
    rfl
  | case2 seen id isRoot rest key hseen ih =>
    intro hdashed missing
    obtain ⟨n, seen', hrun⟩ := ih (fun e he => hdashed e (List.mem_cons_of_mem _ he)) missing
    have hid : key = id := hdashed (id, isRoot) List.mem_cons_self
    refine ⟨n + 1, seen', ?_⟩
    rw [Assembler.unresolvedAmong_of_seen hseen, run, next]
    rw [hid] at hseen
    simpa only [hseen, if_true] using hrun
  | case3 seen id isRoot rest key hseen hget ih =>
    intro hdashed missing
    have hid : key = id := hdashed (id, isRoot) List.mem_cons_self
    obtain ⟨n, seen', hrun⟩ :=
      ih (fun e he => hdashed e (List.mem_cons_of_mem _ he)) (missing ++ [key])
    refine ⟨n + 1, seen', ?_⟩
    rw [Assembler.unresolvedAmong_of_missing hseen hget, run, next]
    rw [hid] at hseen hrun
    simpa only [hseen, if_false, hget, List.append_assoc, List.cons_append, List.nil_append, key,
      hid] using hrun
  | case4 seen id isRoot rest key hseen b hget hopen ih =>
    intro hdashed missing
    have hid : key = id := hdashed (id, isRoot) List.mem_cons_self
    have hpushed : ∀ e ∈ (a.descent isRoot b).map (·, false) ++ rest,
        BlockId.dashed e.1 = e.1 := by
      intro e he
      rcases List.mem_append.mp he with he | he
      · obtain ⟨c, hc, rfl⟩ := List.mem_map.mp he
        exact Assembler.dashed_of_mem_descent hc
      · exact hdashed e (List.mem_cons_of_mem _ he)
    obtain ⟨n, seen', hrun⟩ := ih hpushed missing
    refine ⟨n + 1, seen', ?_⟩
    rw [Assembler.unresolvedAmong_of_open hseen hget hopen, run, next]
    rw [hid] at hseen hrun
    simpa only [hseen, if_false, hget, hopen, if_true, foldl_push, key, hid] using hrun
  | case5 seen id isRoot rest key hseen b hget hclosed ih =>
    intro hdashed missing
    have hid : key = id := hdashed (id, isRoot) List.mem_cons_self
    obtain ⟨n, seen', hrun⟩ := ih (fun e he => hdashed e (List.mem_cons_of_mem _ he)) missing
    refine ⟨n + 1, seen', ?_⟩
    rw [Assembler.unresolvedAmong_of_deleted hseen hget (Bool.eq_false_iff.mpr hclosed), run, next]
    rw [hid] at hseen hrun
    simpa only [hseen, if_false, hget, hclosed, Bool.false_eq_true, key, hid] using hrun

/-- The search for a root comes to an end, with the ids that are listed for the root. -/
theorem run_start (a : Assembler) (rootId : String) :
    ∃ n seen, run a n (start rootId) = ⟨seen, [], a.unresolvedIds rootId⟩ := by
  have hdashed : ∀ e ∈ [(BlockId.dashed rootId, true)], BlockId.dashed e.1 = e.1 := by
    intro e he
    obtain rfl := List.mem_singleton.mp he
    exact BlockId.dashed_dashed rootId
  exact run_eq_unresolvedAmong a [] _ hdashed []

end Search
end Folio
