import Folio.Proofs.Assembly.Depth
import Folio.Proofs.Assembly.Search

/-!
# Folio.Proofs.Assembly.Missing

The search for missing records against the walk that builds a tree. The search marks what it takes
off its stack and looks at nothing twice; the walk knows only its path and comes to a shared block
as often as it is listed. Both come to the missing records in the same order.

* `Explored`: what the search has seen and the walk is not inside of has all its children seen. It
  is why a block that is dropped from the stack leads to nothing new.
* `Finds`: the search looks at ids and all below them, and notes what is missing there.
* `Stops`: the first thing that it notes there is a given id.
* `unresolvedIds_agrees_with_assemble`: the two agree for every root.
-/

namespace Folio

/-- The child that a warning says is missing. -/
def Warning.missingChild? : Warning → Option String
  | .unresolvedChild _ child => some child
  | _ => none

/-- The children that warnings say are missing, as often as they say so. -/
def missingChildren (warnings : List Warning) : List String :=
  warnings.filterMap Warning.missingChild?

theorem missingChildren_append (ws more : List Warning) :
    missingChildren (ws ++ more) = missingChildren ws ++ missingChildren more :=
  List.filterMap_append

theorem missingChildren_transform (r : Registry) (b : Block) (children : List Node) :
    missingChildren (r.transform b children).2 = [] := by
  unfold Registry.transform
  cases r.find? b.blockType with
  | none => rfl
  | some make => rfl

/-! ## First places -/

/-- The elements of a list that were not seen before, each at its first place. -/
def firsts (seen : List String) : List String → List String
  | [] => []
  | x :: rest => if x ∈ seen then firsts seen rest else x :: firsts (x :: seen) rest

theorem firsts_congr {seen seen' l : List String} (h : ∀ x ∈ l, x ∈ seen ↔ x ∈ seen') :
    firsts seen l = firsts seen' l := by
  induction l generalizing seen seen' with
  | nil => rfl
  | cons x rest ih =>
    have hx := h x List.mem_cons_self
    have hrest : ∀ y ∈ rest, y ∈ seen ↔ y ∈ seen' := fun y hy => h y (List.mem_cons_of_mem x hy)
    by_cases hseen : x ∈ seen
    · rw [firsts, firsts, if_pos hseen, if_pos (hx.mp hseen)]
      exact ih hrest
    · rw [firsts, firsts, if_neg hseen, if_neg (fun h' => hseen (hx.mpr h'))]
      congr 1
      refine ih fun y hy => ?_
      rw [List.mem_cons, List.mem_cons, hrest y hy]

theorem firsts_append (seen l l' : List String) :
    firsts seen (l ++ l') = firsts seen l ++ firsts (l ++ seen) l' := by
  induction l generalizing seen with
  | nil => rfl
  | cons x rest ih =>
    by_cases hseen : x ∈ seen
    · rw [List.cons_append, firsts, firsts, if_pos hseen, if_pos hseen, ih]
      congr 1
      refine firsts_congr fun y _ => ?_
      simp only [List.mem_append, List.mem_cons]
      constructor
      · rintro (h | h)
        · exact .inl (.inr h)
        · exact .inr h
      · rintro ((rfl | h) | h)
        · exact .inr hseen
        · exact .inl h
        · exact .inr h
    · rw [List.cons_append, firsts, firsts, if_neg hseen, if_neg hseen, ih, List.cons_append]
      congr 2
      refine firsts_congr fun y _ => ?_
      simp only [List.mem_append, List.mem_cons]
      rw [or_left_comm, or_assoc]

theorem firsts_eq_nil_iff {seen l : List String} : firsts seen l = [] ↔ l ⊆ seen := by
  induction l with
  | nil => simp [firsts]
  | cons x rest ih =>
    by_cases hseen : x ∈ seen
    · rw [firsts, if_pos hseen, ih]
      simp [hseen]
    · rw [firsts, if_neg hseen]
      simp [hseen]

theorem firsts_eq_eraseDups (seen l : List String) :
    firsts seen l = (l.filter (· ∉ seen)).eraseDups := by
  induction l generalizing seen with
  | nil => rfl
  | cons x rest ih =>
    by_cases hseen : x ∈ seen
    · rw [firsts, if_pos hseen, ih, List.filter_cons_of_neg (by simpa using hseen)]
    · rw [firsts, if_neg hseen, ih, List.filter_cons_of_pos (by simpa using hseen),
        List.eraseDups_cons, List.filter_filter]
      congr 2
      refine List.filter_congr fun y _ => ?_
      by_cases hy : y = x <;> simp [hy]

namespace Assembler

variable {a : Assembler} {path seen : List String}

/-! ## What the search knows -/

/-- The children of everything seen are seen too, but for the blocks on the path. -/
def Explored (a : Assembler) (path seen : List String) : Prop :=
  ∀ id ∈ seen, id ∉ path → ∀ b, a.records.get? id = some b → b.isAlive = true →
    a.descent false b ⊆ seen

/-- The search looks at the ids and at all below them. What it has seen before does not matter but
for blocks on the path. It has then seen the ids, and of the missing records those found here. -/
structure Finds (a : Assembler) (path ids missing : List String) : Prop where
  noRecord : ∀ id ∈ missing, a.records.get? id = none
  search : ∀ seen, a.Explored path seen → ∃ seen',
    (∀ rest, a.unresolvedAmong seen (ids.map (·, false) ++ rest) =
      firsts seen missing ++ a.unresolvedAmong seen' rest) ∧
    a.Explored path seen' ∧ seen ⊆ seen' ∧ ids ⊆ seen' ∧
    ∀ id, a.records.get? id = none → (id ∈ seen' ↔ id ∈ seen ∨ id ∈ missing)

/-- The first missing record among the ids and all below them, if none was seen before. -/
def Stops (a : Assembler) (path ids : List String) (child : String) : Prop :=
  ∀ seen, a.Explored path seen → (∀ id ∈ seen, a.records.get? id ≠ none) → ∀ rest,
    ∃ more, a.unresolvedAmong seen (ids.map (·, false) ++ rest) = child :: more

/-- Seeing an id with a record does not change which missing ones were seen. -/
theorem mem_cons_iff_of_missing {id x : String} {b : Block} (hget : a.records.get? id = some b)
    (hx : a.records.get? x = none) : x ∈ id :: seen ↔ x ∈ seen := by
  have hne : x ≠ id := by
    rintro rfl
    rw [hget] at hx
    cases hx
  simp [hne]

theorem Explored.enter (h : a.Explored path seen) (id : String) : a.Explored (id :: path) seen :=
  fun x hx hoff => h x hx fun hp => hoff (List.mem_cons_of_mem id hp)

/-- An id below which there is nothing to look at may be added to what was seen. -/
theorem Explored.cons (h : a.Explored path seen) {id : String}
    (hid : id ∉ path → ∀ b, a.records.get? id = some b → b.isAlive = true →
      a.descent false b ⊆ id :: seen) : a.Explored path (id :: seen) := by
  intro x hx hoff b hget hlive
  rcases List.mem_cons.mp hx with rfl | hx
  · exact hid hoff b hget hlive
  · exact fun c hc => List.mem_cons_of_mem id (h x hx hoff b hget hlive hc)

theorem unresolvedAmong_of_subset {ids : List String} (hdashed : ∀ id ∈ ids, BlockId.dashed id = id)
    (h : ids ⊆ seen) (rest : List (String × Bool)) :
    a.unresolvedAmong seen (ids.map (·, false) ++ rest) = a.unresolvedAmong seen rest := by
  induction ids with
  | nil => rfl
  | cons id ids ih =>
    have hid : BlockId.dashed id ∈ seen := by
      rw [hdashed id List.mem_cons_self]
      exact h List.mem_cons_self
    rw [List.map_cons, List.cons_append, unresolvedAmong_of_seen hid]
    exact ih (fun x hx => hdashed x (List.mem_cons_of_mem id hx))
      fun x hx => h (List.mem_cons_of_mem id hx)

/-! ## Steps of the search -/

namespace Finds

theorem nil : a.Finds path [] [] where
  noRecord := fun id hid => nomatch hid
  search := fun seen hexp =>
    ⟨seen, fun _ => rfl, hexp, fun _ h => h, List.nil_subset seen, fun id _ => by simp⟩

theorem cons {id : String} {ids missing more : List String} (hid : a.Finds path [id] missing)
    (hids : a.Finds path ids more) : a.Finds path (id :: ids) (missing ++ more) where
  noRecord := fun x hx => (List.mem_append.mp hx).elim (hid.noRecord x) (hids.noRecord x)
  search := by
    intro seen hexp
    obtain ⟨seen₁, hsearch₁, hexp₁, hkeep₁, hcover₁, hmiss₁⟩ := hid.search seen hexp
    obtain ⟨seen₂, hsearch₂, hexp₂, hkeep₂, hcover₂, hmiss₂⟩ := hids.search seen₁ hexp₁
    refine ⟨seen₂, fun rest => ?_, hexp₂, fun x hx => hkeep₂ (hkeep₁ hx), fun x hx => ?_,
      fun x hx => ?_⟩
    · have hfirsts : firsts seen₁ more = firsts (missing ++ seen) more := by
        refine firsts_congr fun x hx => ?_
        rw [hmiss₁ x (hids.noRecord x hx), List.mem_append]
        exact or_comm
      have hhead := hsearch₁ (ids.map (·, false) ++ rest)
      rw [List.map_cons, List.cons_append, firsts_append, List.append_assoc, ← hfirsts,
        ← hsearch₂ rest]
      exact hhead
    · rcases List.mem_cons.mp hx with rfl | hx
      · exact hkeep₂ (hcover₁ List.mem_cons_self)
      · exact hcover₂ hx
    · rw [hmiss₂ x hx, hmiss₁ x hx, List.mem_append, or_assoc]

/-- A missing record is noted unless it was seen. -/
theorem of_missing {id : String} (hdashed : BlockId.dashed id = id)
    (hget : a.records.get? id = none) : a.Finds path [id] [id] where
  noRecord := fun x hx => by
    obtain rfl := List.mem_singleton.mp hx
    exact hget
  search := by
    intro seen hexp
    by_cases hseen : id ∈ seen
    · refine ⟨seen, fun rest => ?_, hexp, fun _ h => h, by simpa using hseen, fun x _ => ?_⟩
      · rw [firsts_eq_nil_iff.mpr (by simpa using hseen)]
        exact unresolvedAmong_of_seen (hdashed.symm ▸ hseen)
      · rw [List.mem_singleton]
        exact ⟨.inl, fun h => h.elim (fun h => h) fun h => h ▸ hseen⟩
    · have hnone : a.Explored path (id :: seen) := hexp.cons fun _ b hget' _ => by
        rw [hget] at hget'
        cases hget'
      refine ⟨id :: seen, fun rest => ?_, hnone, List.subset_cons_self id seen,
        by simp, fun x _ => ?_⟩
      · have hfirst : firsts seen [id] = [id] := by simp [firsts, hseen]
        rw [hfirst]
        exact unresolvedAmong_child_of_missing hdashed hseen hget
      · rw [List.mem_cons, List.mem_singleton]
        exact or_comm

/-- Below a deleted block there is nothing to look at. -/
theorem of_deleted {id : String} {b : Block} (hdashed : BlockId.dashed id = id)
    (hget : a.records.get? id = some b) (hdead : b.isAlive = false) : a.Finds path [id] [] where
  noRecord := fun x hx => nomatch hx
  search := by
    intro seen hexp
    by_cases hseen : id ∈ seen
    · refine ⟨seen, fun rest => ?_, hexp, fun _ h => h, by simpa using hseen, fun x _ => by simp⟩
      exact unresolvedAmong_of_seen (hdashed.symm ▸ hseen)
    · have hexp' : a.Explored path (id :: seen) := hexp.cons fun _ b' hget' hlive => by
        obtain rfl : b = b' := Option.some.inj (hget.symm.trans hget')
        rw [hdead] at hlive
        cases hlive
      refine ⟨id :: seen, fun rest => ?_, hexp', List.subset_cons_self id seen, by simp,
        fun x hx => ?_⟩
      · exact unresolvedAmong_child_of_deleted hdashed hseen hget hdead
      · rw [mem_cons_iff_of_missing hget hx]
        simp

/-- What was seen and explored leads to nothing new: every id below it was seen. -/
theorem subset_of_explored {ids missing : List String} (h : a.Finds path ids missing)
    (hdashed : ∀ id ∈ ids, BlockId.dashed id = id) (hexp : a.Explored path seen)
    (hids : ids ⊆ seen) : missing ⊆ seen := by
  obtain ⟨seen', hsearch, -⟩ := h.search seen hexp
  have hnothing := hsearch []
  rw [unresolvedAmong_of_subset hdashed hids, unresolvedAmong_nil, unresolvedAmong_nil,
    List.append_nil] at hnothing
  exact firsts_eq_nil_iff.mp hnothing.symm

/-- At a block that is not on the path the search looks at its children, or has done so before. -/
theorem of_block {b : Block} {missing : List String} (hb : b ∈ a.records.blocks)
    (hlive : b.isAlive = true) (hoff : b.id ∉ path)
    (h : a.Finds (b.id :: path) (a.descent false b) missing) : a.Finds path [b.id] missing where
  noRecord := h.noRecord
  search := by
    intro seen hexp
    have hdashed := a.records.dashed_id b hb
    have hget := RecordMap.get?_of_mem hb
    by_cases hseen : b.id ∈ seen
    · -- seen before, so that whatever is missing below was noted then
      have hold : missing ⊆ seen := h.subset_of_explored (fun _ => dashed_of_mem_descent)
        (hexp.enter b.id) (hexp b.id hseen hoff b hget hlive)
      refine ⟨seen, fun rest => ?_, hexp, fun _ h => h, by simpa using hseen, fun x _ => ?_⟩
      · rw [firsts_eq_nil_iff.mpr hold]
        exact unresolvedAmong_of_seen (hdashed.symm ▸ hseen)
      · exact ⟨.inl, fun h => h.elim (fun h => h) fun h => hold h⟩
    · have hexp₁ : a.Explored (b.id :: path) (b.id :: seen) :=
        (hexp.enter b.id).cons fun hoff' => absurd List.mem_cons_self hoff'
      obtain ⟨seen', hsearch, hexp', hkeep, hcover, hmiss⟩ := h.search (b.id :: seen) hexp₁
      have hrecord : ∀ x, a.records.get? x = none → (x ∈ b.id :: seen ↔ x ∈ seen) :=
        fun x hx => mem_cons_iff_of_missing hget hx
      refine ⟨seen', fun rest => ?_, fun x hx hxoff c hgetc hlivec => ?_,
        fun x hx => hkeep (List.mem_cons_of_mem _ hx), by simpa using hkeep List.mem_cons_self,
        fun x hx => ?_⟩
      · rw [← firsts_congr fun x hx => hrecord x (h.noRecord x hx), ← hsearch rest]
        exact unresolvedAmong_child_of_alive hdashed hseen hget hlive
      · -- the block itself is off the path again, and its children were just looked at
        by_cases hxb : x = b.id
        · obtain rfl : b = c := Option.some.inj (hget.symm.trans (hxb ▸ hgetc))
          exact hcover
        · exact hexp' x hx (by simp [hxb, hxoff]) c hgetc hlivec
      · rw [hmiss x hx, hrecord x hx]

end Finds

namespace Stops

theorem of_missing {id : String} (hdashed : BlockId.dashed id = id)
    (hget : a.records.get? id = none) : a.Stops path [id] id := by
  intro seen _ hnone rest
  have hseen : id ∉ seen := fun h => hnone id h hget
  exact ⟨_, unresolvedAmong_child_of_missing hdashed hseen hget⟩

theorem head {id child : String} (h : a.Stops path [id] child) (ids : List String) :
    a.Stops path (id :: ids) child := by
  intro seen hexp hnone rest
  exact h seen hexp hnone (ids.map (·, false) ++ rest)

theorem tail {id child : String} {ids : List String} (hid : a.Finds path [id] [])
    (h : a.Stops path ids child) : a.Stops path (id :: ids) child := by
  intro seen hexp hnone rest
  obtain ⟨seen', hsearch, hexp', -, -, hmiss⟩ := hid.search seen hexp
  have hnone' : ∀ x ∈ seen', a.records.get? x ≠ none := by
    intro x hx hget
    rcases (hmiss x hget).mp hx with hx | hx
    · exact hnone x hx hget
    · cases hx
  obtain ⟨more, hmore⟩ := h seen' hexp' hnone' rest
  exact ⟨more, (hsearch _).trans hmore⟩

theorem of_block {b : Block} {child : String} (hb : b ∈ a.records.blocks)
    (hlive : b.isAlive = true) (hoff : b.id ∉ path)
    (h : a.Stops (b.id :: path) (a.descent false b) child) : a.Stops path [b.id] child := by
  intro seen hexp hnone rest
  have hdashed := a.records.dashed_id b hb
  have hget := RecordMap.get?_of_mem hb
  by_cases hseen : b.id ∈ seen
  · -- all below the block was looked at, so that nothing missing can be left there
    have hids := hexp b.id hseen hoff b hget hlive
    obtain ⟨more, hmore⟩ := h seen (hexp.enter b.id) hnone []
    rw [unresolvedAmong_of_subset (fun _ => dashed_of_mem_descent) hids,
      unresolvedAmong_nil] at hmore
    cases hmore
  · have hexp₁ : a.Explored (b.id :: path) (b.id :: seen) :=
      (hexp.enter b.id).cons fun hoff' => absurd List.mem_cons_self hoff'
    have hnone₁ : ∀ x ∈ b.id :: seen, a.records.get? x ≠ none := by
      intro x hx
      rcases List.mem_cons.mp hx with rfl | hx
      · rw [hget]
        exact fun hf => nomatch hf
      · exact hnone x hx
    obtain ⟨more, hmore⟩ := h (b.id :: seen) hexp₁ hnone₁ rest
    exact ⟨more, (unresolvedAmong_child_of_alive hdashed hseen hget hlive).trans hmore⟩

end Stops

/-! ## What the walk knows -/

theorem buildChild_finds {parent id : String} {nodes : List Node} {ws : List Warning}
    (hdashed : BlockId.dashed id = id)
    (hchild : ∀ c hc n w, a.records.get? id = some c → c.isAlive = true →
      a.build path c hc false = .ok (n, w) →
      c.id ∉ path ∧ a.Finds (c.id :: path) (a.descent false c) (missingChildren w))
    (h : a.buildChild path parent id = .ok (nodes, ws)) :
    a.Finds path [id] (missingChildren ws) := by
  rcases buildChild_eq_ok_iff.mp h with ⟨c, hc, n, hget, hlive, hbuild, -⟩ |
    ⟨c, hget, hdead, -, rfl⟩ | ⟨hget, -, -, rfl⟩
  · obtain ⟨hoff, hfinds⟩ := hchild c hc n ws hget hlive hbuild
    have hid : c.id = id := (RecordMap.id_of_get? hget).trans hdashed
    rw [← hid]
    exact .of_block hc hlive hoff hfinds
  · exact .of_deleted hdashed hget hdead
  · exact .of_missing hdashed hget

theorem buildAll_finds {parent : String} {ids : List String} {nodes : List Node}
    {ws : List Warning} (hdashed : ∀ id ∈ ids, BlockId.dashed id = id)
    (hchild : ∀ id ∈ ids, ∀ c hc n w, a.records.get? id = some c → c.isAlive = true →
      a.build path c hc false = .ok (n, w) →
      c.id ∉ path ∧ a.Finds (c.id :: path) (a.descent false c) (missingChildren w))
    (h : a.buildAll path parent ids = .ok (nodes, ws)) : a.Finds path ids (missingChildren ws) := by
  induction ids generalizing nodes ws with
  | nil =>
    rw [buildAll_nil] at h
    cases h
    exact .nil
  | cons id rest ih =>
    obtain ⟨n, w, ns, more, hhead, hrest, -, rfl⟩ := buildAll_cons_eq_ok_iff.mp h
    rw [missingChildren_append]
    refine .cons ?_ ?_
    · exact buildChild_finds (hdashed id List.mem_cons_self) (hchild id List.mem_cons_self) hhead
    · exact ih (fun x hx => hdashed x (List.mem_cons_of_mem id hx))
        (fun x hx => hchild x (List.mem_cons_of_mem id hx)) hrest

/-- Where a block is built, the search finds below it what the walk has warned of. -/
theorem build_finds : ∀ path isRoot b, b ∈ a.records.blocks → ∀ hb n ws,
    a.build path b hb isRoot = .ok (n, ws) →
    b.id ∉ path ∧ a.Finds (b.id :: path) (a.descent isRoot b) (missingChildren ws) := by
  refine walk_induction fun path isRoot b _ ih hb n ws h => ?_
  obtain ⟨hoff, children, warnings, hall, -, rfl⟩ := build_eq_ok_iff.mp h
  refine ⟨hoff, ?_⟩
  rw [missingChildren_append, missingChildren_transform, List.append_nil]
  exact buildAll_finds (fun _ => dashed_of_mem_descent)
    (fun id hid c hc n' w hget hlive hbuild => ih hoff id hid c hget hlive hc n' w hbuild) hall

/-- A walk that a missing child stops has met none before. -/
theorem missingChildren_of_fail (hfail : a.policy = .fail) :
    ∀ path isRoot b, b ∈ a.records.blocks → ∀ hb n ws,
      a.build path b hb isRoot = .ok (n, ws) → missingChildren ws = [] := by
  refine walk_induction fun path isRoot b _ ih hb n ws h => ?_
  obtain ⟨hoff, children, warnings, hall, -, rfl⟩ := build_eq_ok_iff.mp h
  rw [missingChildren_append, missingChildren_transform, List.append_nil]
  have hchild := ih hoff
  replace hall := builtAll_of_buildAll hall
  clear h ih
  generalize a.descent isRoot b = ids at hall hchild
  induction hall with
  | nil => rfl
  | @alive id c hc n w _ _ _ hget hlive hbuild _ ih =>
    rw [missingChildren_append, hchild id List.mem_cons_self c hget hlive hc n w hbuild,
      ih fun x hx => hchild x (List.mem_cons_of_mem id hx), List.append_nil]
  | @deleted id _ _ _ _ _ _ _ ih => exact ih fun x hx => hchild x (List.mem_cons_of_mem id hx)
  | missing _ hskip =>
    rw [hfail] at hskip
    cases hskip

theorem buildAll_stops (hfail : a.policy = .fail) {parent p child : String} {ids : List String}
    (hdashed : ∀ id ∈ ids, BlockId.dashed id = id)
    (hchild : ∀ id ∈ ids, ∀ c hc, a.records.get? id = some c → c.isAlive = true →
      a.build path c hc false = .error (.unresolvedChild p child) →
      c.id ∉ path ∧ a.Stops (c.id :: path) (a.descent false c) child)
    (h : a.buildAll path parent ids = .error (.unresolvedChild p child)) :
    a.Stops path ids child := by
  induction ids with
  | nil =>
    rw [buildAll_nil] at h
    cases h
  | cons id rest ih =>
    have hid := hdashed id List.mem_cons_self
    rcases buildAll_cons_eq_error_iff.mp h with hhead | ⟨n, w, hhead, hrest⟩
    · refine .head ?_ rest
      rcases buildChild_eq_error_iff.mp hhead with ⟨c, hc, hget, hlive, hbuild⟩ | ⟨hget, -, he⟩
      · obtain ⟨hoff, hstops⟩ := hchild id List.mem_cons_self c hc hget hlive hbuild
        rw [← hid, ← RecordMap.id_of_get? hget]
        exact .of_block hc hlive hoff hstops
      · cases he
        exact .of_missing hid hget
    · -- the first child was built, so nothing is missing below it
      refine .tail ?_ (ih (fun x hx => hdashed x (List.mem_cons_of_mem id hx))
        (fun x hx => hchild x (List.mem_cons_of_mem id hx)) hrest)
      have hfinds := buildChild_finds hid
        (fun c hc n' w' _ _ hbuild => build_finds path false c hc hc n' w' hbuild) hhead
      have hnone : missingChildren w = [] := by
        rcases buildChild_eq_ok_iff.mp hhead with ⟨c, hc, n', -, -, hbuild, -⟩ |
          ⟨c, -, -, -, rfl⟩ | ⟨-, hskip, -, -⟩
        · exact missingChildren_of_fail hfail path false c hc hc n' w hbuild
        · rfl
        · rw [hfail] at hskip
          cases hskip
      rwa [hnone] at hfinds

/-- Where a missing child stops the walk, it is the first that the search notes. -/
theorem build_stops (hfail : a.policy = .fail) {p child : String} :
    ∀ path isRoot b, b ∈ a.records.blocks → ∀ hb,
      a.build path b hb isRoot = .error (.unresolvedChild p child) →
      b.id ∉ path ∧ a.Stops (b.id :: path) (a.descent isRoot b) child := by
  refine walk_induction fun path isRoot b _ ih hb h => ?_
  rcases build_eq_error_iff.mp h with ⟨_, he⟩ | ⟨hoff, hall⟩
  · cases he
  · exact ⟨hoff, buildAll_stops hfail (fun _ => dashed_of_mem_descent)
      (fun id hid c hc hget hlive hbuild => ih hoff id hid c hget hlive hc hbuild) hall⟩

/-! ## The search for a root -/

theorem unresolvedIds_of_missing {rootId : String} (hget : a.records.get? rootId = none) :
    a.unresolvedIds rootId = [BlockId.dashed rootId] := by
  have hget' : a.records.get? (BlockId.dashed rootId) = none := by rwa [RecordMap.get?_dashed]
  rw [unresolvedIds, unresolvedAmong_of_missing List.not_mem_nil hget', unresolvedAmong_nil,
    BlockId.dashed_dashed]

theorem unresolvedIds_of_get? {rootId : String} {b : Block}
    (hget : a.records.get? rootId = some b) :
    a.unresolvedIds rootId =
      a.unresolvedAmong [b.id] ((a.descent true b).map (·, false) ++ []) := by
  have hget' : a.records.get? (BlockId.dashed rootId) = some b := by rwa [RecordMap.get?_dashed]
  rw [unresolvedIds, unresolvedAmong_of_open List.not_mem_nil hget' (Bool.true_or _),
    BlockId.dashed_dashed, RecordMap.id_of_get? hget]

theorem explored_self (id : String) : a.Explored [id] [id] :=
  fun _ hx hoff => absurd hx hoff

/-- The ids that are listed as unresolved are found after finitely many rounds of the search,
without repetitions. They are the missing children that the walk for a tree warns of, each at its
first place, and the one that stops a walk that may not go on is the first of them. -/
theorem unresolvedIds_agrees_with_assemble (a : Assembler) (rootId : String) :
    (∃ n seen, Search.run a n (.start rootId) = ⟨seen, [], a.unresolvedIds rootId⟩) ∧
    (a.unresolvedIds rootId).Nodup ∧
    (a.records.get? rootId = none → a.unresolvedIds rootId = [BlockId.dashed rootId]) ∧
    (a.policy = .skip → ∀ t, a.assemble rootId = .ok t →
      a.unresolvedIds rootId = (missingChildren t.warnings).eraseDups) ∧
    (a.policy = .fail → ∀ parent child,
      a.assemble rootId = .error (.unresolvedChild parent child) →
      (a.unresolvedIds rootId).head? = some child) := by
  refine ⟨Search.run_start a rootId, (nodup_unresolvedAmong [] _).1, unresolvedIds_of_missing,
    fun _ t h => ?_, fun hfail parent child h => ?_⟩
  · obtain ⟨b, hb, hget, hbuild⟩ := assemble_eq_ok_iff.mp h
    obtain ⟨-, hfinds⟩ := build_finds [] true b hb hb _ _ hbuild
    obtain ⟨seen, hsearch, -⟩ := hfinds.search [b.id] (explored_self b.id)
    have hroot : ∀ x ∈ missingChildren t.warnings, x ∈ [b.id] ↔ x ∈ [] :=
      fun x hx => mem_cons_iff_of_missing (RecordMap.get?_of_mem hb) (hfinds.noRecord x hx)
    rw [unresolvedIds_of_get? hget, hsearch, unresolvedAmong_nil, List.append_nil,
      firsts_congr hroot, firsts_eq_eraseDups]
    simp
  · rcases assemble_eq_error_iff.mp h with ⟨_, he⟩ | ⟨b, hb, hget, hbuild⟩
    · cases he
    · obtain ⟨-, hstops⟩ := build_stops hfail [] true b hb hb hbuild
      have hnone : ∀ x ∈ [b.id], a.records.get? x ≠ none := by
        intro x hx
        obtain rfl := List.mem_singleton.mp hx
        rw [RecordMap.get?_of_mem hb]
        exact fun hf => nomatch hf
      obtain ⟨more, hmore⟩ := hstops [b.id] (explored_self b.id) hnone []
      rw [unresolvedIds_of_get? hget, hmore]
      rfl

/-- A deleted root that lists itself, a toggle that it lists twice, and two missing blocks. -/
def gaps : Assembler where
  records := .ofList
    [{ id := "root", blockType := "page", alive := some false },
     { id := "twice", blockType := "toggle" }, { id := "line", blockType := "text" }]
  children := ChildIndex.empty
    |>.set "root" ["twice", "gone", "twice", "root", "lost"]
    |>.set "twice" ["lost", "line", "lost"]

theorem gaps_unresolvedIds :
    (∃ t, gaps.assemble "root" = .ok t ∧
      missingChildren t.warnings = ["lost", "lost", "gone", "lost", "lost", "lost"]) ∧
    gaps.unresolvedIds "root" = ["lost", "gone"] ∧
    ({ gaps with policy := .fail }).assemble "root" = .error (.unresolvedChild "twice" "lost") := by
  obtain ⟨-, -, -, hskip, -⟩ := unresolvedIds_agrees_with_assemble gaps "root"
  have hok : (gaps.assembleWithin 4 "root").map (·.map (missingChildren ·.warnings)) =
      some (.ok ["lost", "lost", "gone", "lost", "lost", "lost"]) := rfl
  have hfail : ({ gaps with policy := .fail }).assembleWithin 4 "root" =
      some (.error (.unresolvedChild "twice" "lost")) := rfl
  rw [assembleWithin_eq_assemble gaps (by decide)] at hok
  rw [assembleWithin_eq_assemble _ (by decide)] at hfail
  cases h : gaps.assemble "root" with
  | error e =>
    rw [h] at hok
    cases hok
  | ok t =>
    rw [h] at hok
    have hlost : missingChildren t.warnings = ["lost", "lost", "gone", "lost", "lost", "lost"] :=
      Except.ok.inj (Option.some.inj hok)
    refine ⟨⟨t, rfl, hlost⟩, ?_, Option.some.inj hfail⟩
    rw [hskip rfl t h, hlost]
    decide

end Assembler
end Folio
