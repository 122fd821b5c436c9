import Folio.Proofs.Assembly.Simulation

/-!
# Folio.Proofs.Assembly.Policy

The two policies side by side. A walk that a missing child stops and a walk that goes on do the same
up to the first missing child that they meet.

* `Agree`: how the result of the first walk goes with that of the second. Of the second one only
  what it comes to as a whole counts, because a cycle may still end it after the first has stopped.
* `buildChild_agree`, `buildAll_agree`, `build_agree`: one child, all children, and a block.
* `assemble_policies_agree`: the tree of a root.
-/

namespace Folio

/-- Whether a warning says that a child is missing. -/
def Warning.isMissingChild : Warning → Bool
  | .unresolvedChild _ _ => true
  | _ => false

/-- The first warning that a child is missing. -/
def firstMissing (warnings : List Warning) : Option Warning :=
  warnings.find? Warning.isMissingChild

theorem firstMissing_append (ws more : List Warning) :
    firstMissing (ws ++ more) = (firstMissing ws).or (firstMissing more) :=
  List.find?_append

theorem firstMissing_transform (r : Registry) (b : Block) (children : List Node) :
    firstMissing (r.transform b children).2 = none := by
  unfold Registry.transform
  cases r.find? b.blockType with
  | none => rfl
  | some make => rfl

theorem firstMissing_eq_none_iff {ws : List Warning} :
    firstMissing ws = none ↔ ∀ parent child, .unresolvedChild parent child ∉ ws := by
  unfold firstMissing
  rw [List.find?_eq_none]
  constructor
  · intro h parent child hmem
    exact h _ hmem rfl
  · intro h w hw hmissing
    cases w with
    | unresolvedChild parent child => exact h parent child hw
    | _ => cases hmissing

/-! ## Results that go together -/

/-- How the result under the policy to fail goes with that under the policy to skip. -/
inductive Agree (warnings : α → List Warning) :
    Except AssemblyError α → Except AssemblyError α → Prop where
  /-- Nothing was missing. -/
  | done {x : α} : firstMissing (warnings x) = none → Agree warnings (.ok x) (.ok x)
  /-- A missing child stopped one walk. The other one has warned of it first, if it came to an end. -/
  | stopped {parent child : String} {skip : Except AssemblyError α} :
      (∀ x, skip = .ok x → firstMissing (warnings x) = some (.unresolvedChild parent child)) →
      Agree warnings (.error (.unresolvedChild parent child)) skip
  /-- Both came to the same error before. -/
  | failed {e : AssemblyError} : Agree warnings (.error e) (.error e)

namespace Agree

variable {warnings : α → List Warning} {fail skip : Except AssemblyError α}

theorem ok_iff (h : Agree warnings fail skip) {x : α} :
    fail = .ok x ↔ skip = .ok x ∧ firstMissing (warnings x) = none := by
  constructor
  · rintro rfl
    cases h with
    | done hnone => exact ⟨rfl, hnone⟩
  · rintro ⟨rfl, hnone⟩
    cases h with
    | done => rfl
    | stopped hfirst =>
      rw [hfirst x rfl] at hnone
      cases hnone

theorem first (h : Agree warnings fail skip) {parent child : String} {x : α}
    (hfail : fail = .error (.unresolvedChild parent child)) (hskip : skip = .ok x) :
    firstMissing (warnings x) = some (.unresolvedChild parent child) := by
  subst hfail
  cases h with
  | stopped hfirst => exact hfirst x hskip
  | failed => cases hskip

theorem error (h : Agree warnings fail skip) {e : AssemblyError} (hfail : fail = .error e)
    (hother : ∀ parent child, e ≠ .unresolvedChild parent child) : skip = .error e := by
  subst hfail
  cases h with
  | stopped => exact absurd rfl (hother _ _)
  | failed => rfl

/-- What both go on with. A warning that was there stays the first one. -/
theorem bind {warnings' : β → List Warning} {f g : α → Except AssemblyError β}
    (h : Agree warnings fail skip)
    (hdone : ∀ x, firstMissing (warnings x) = none → Agree warnings' (f x) (g x))
    (hstopped : ∀ x y w, firstMissing (warnings x) = some w → g x = .ok y →
      firstMissing (warnings' y) = some w) :
    Agree warnings' (fail.bind f) (skip.bind g) := by
  cases h with
  | @done x hnone => exact hdone x hnone
  | failed => exact .failed
  | stopped hfirst =>
    refine .stopped fun y hy => ?_
    cases skip with
    | error e => cases hy
    | ok x => exact hstopped x y _ (hfirst x rfl) hy

end Agree

namespace Assembler

/-- The same records, children and makers under a policy. -/
def under (a : Assembler) (policy : MissingChildPolicy) : Assembler :=
  { a with policy }

variable {a : Assembler} {path : List String}

/-! ## The two walks -/

theorem buildChild_agree {parent id : String}
    (hchild : ∀ c hfail hskip, a.records.get? id = some c → c.isAlive = true →
      Agree Prod.snd ((a.under .fail).build path c hfail false)
        ((a.under .skip).build path c hskip false)) :
    Agree Prod.snd ((a.under .fail).buildChild path parent id)
      ((a.under .skip).buildChild path parent id) := by
  cases hget : a.records.get? id with
  | none =>
    rw [buildChild_of_missing (a := a.under .fail) hget,
      buildChild_of_missing (a := a.under .skip) hget]
    refine .stopped fun x hx => ?_
    cases hx
    rfl
  | some c =>
    have hc := RecordMap.mem_of_get? hget
    cases hlive : c.isAlive with
    | false =>
      rw [buildChild_of_deleted (a := a.under .fail) hget hlive,
        buildChild_of_deleted (a := a.under .skip) hget hlive]
      exact .done rfl
    | true =>
      have hbind (policy : MissingChildPolicy) : (a.under policy).buildChild path parent id =
          ((a.under policy).build path c hc false).bind fun r => .ok ([r.1], r.2) := by
        rw [buildChild_of_alive (a := a.under policy) hget hlive hc]
        cases (a.under policy).build path c hc false <;> rfl
      rw [hbind, hbind]
      refine (hchild c hc hc hget hlive).bind (fun r hnone => .done hnone) fun r y w hw hy => ?_
      cases hy
      exact hw

theorem buildAll_agree {parent : String} {ids : List String}
    (hchild : ∀ id ∈ ids, Agree Prod.snd ((a.under .fail).buildChild path parent id)
      ((a.under .skip).buildChild path parent id)) :
    Agree Prod.snd ((a.under .fail).buildAll path parent ids)
      ((a.under .skip).buildAll path parent ids) := by
  induction ids with
  | nil =>
    rw [buildAll_nil, buildAll_nil]
    exact .done rfl
  | cons id rest ih =>
    have hhead := hchild id List.mem_cons_self
    have hrest := ih fun x hx => hchild x (List.mem_cons_of_mem id hx)
    -- the first child and then the others: either may be where one of the walks stops
    have hbind (policy : MissingChildPolicy) : (a.under policy).buildAll path parent (id :: rest) =
        ((a.under policy).buildChild path parent id).bind fun r =>
          ((a.under policy).buildAll path parent rest).bind fun r' =>
            .ok (r.1 ++ r'.1, r.2 ++ r'.2) := by
      rw [buildAll_cons]
      cases (a.under policy).buildChild path parent id with
      | error e => rfl
      | ok r => cases (a.under policy).buildAll path parent rest <;> rfl
    rw [hbind, hbind]
    refine hhead.bind (fun r hnone => ?_) fun r y w hw hy => ?_
    · refine hrest.bind (fun r' hnone' => .done ?_) fun r' y w hw hy => ?_
      · rw [firstMissing_append, hnone, hnone']
        rfl
      · cases hy
        rw [firstMissing_append, hnone, hw]
        rfl
    · -- whatever the walk that goes on finds later stands behind the first warning
      cases hall : (a.under .skip).buildAll path parent rest with
      | error e =>
        rw [hall] at hy
        cases hy
      | ok r' =>
        rw [hall] at hy
        cases hy
        rw [firstMissing_append, hw]
        rfl

/-- A block, which stands in the same records under either policy. -/
theorem build_agree : ∀ path isRoot b, b ∈ a.records.blocks → ∀ hfail hskip,
    Agree Prod.snd ((a.under .fail).build path b hfail isRoot)
      ((a.under .skip).build path b hskip isRoot) := by
  refine walk_induction fun path isRoot b _ ih hfail hskip => ?_
  by_cases hp : b.id ∈ path
  · rw [build_of_mem hp, build_of_mem hp]
    exact .failed
  · have hall : Agree Prod.snd
        ((a.under .fail).buildAll (b.id :: path) b.id ((a.under .fail).descent isRoot b))
        ((a.under .skip).buildAll (b.id :: path) b.id ((a.under .skip).descent isRoot b)) :=
      buildAll_agree fun id hid => buildChild_agree fun c hfail hskip hget hlive =>
        ih hp id hid c hget hlive hfail hskip
    have hbind (policy : MissingChildPolicy) (hb : b ∈ (a.under policy).records.blocks) :
        (a.under policy).build path b hb isRoot =
          ((a.under policy).buildAll (b.id :: path) b.id
            ((a.under policy).descent isRoot b)).bind fun r =>
              .ok (a.fillAlias (a.registry.transform b r.1).1,
                r.2 ++ (a.registry.transform b r.1).2) := by
      rw [build_of_not_mem hp]
      cases (a.under policy).buildAll (b.id :: path) b.id _ <;> rfl
    rw [hbind, hbind]
    refine hall.bind (fun r hnone => .done ?_) fun r y w hw hy => ?_
    · rw [firstMissing_append, hnone, firstMissing_transform]
      rfl
    · cases hy
      rw [firstMissing_append, hw]
      rfl

/-! ## The tree of a root -/

theorem assemble_agree (a : Assembler) (rootId : String) :
    Agree Assembled.warnings ((a.under .fail).assemble rootId)
      ((a.under .skip).assemble rootId) := by
  cases hget : a.records.get? rootId with
  | none =>
    rw [assemble_of_missing (a := a.under .fail) hget, assemble_of_missing (a := a.under .skip) hget]
    exact .failed
  | some b =>
    have hb := RecordMap.mem_of_get? hget
    have hbind (policy : MissingChildPolicy) : (a.under policy).assemble rootId =
        ((a.under policy).build [] b hb true).bind fun r => .ok ⟨r.1, r.2⟩ := by
      rw [assemble_of_get? (a := a.under policy) hget hb]
      cases (a.under policy).build [] b hb true <;> rfl
    have hbuild := build_agree (a := a) [] true b hb hb hb
    rw [hbind, hbind]
    refine hbuild.bind (fun r hnone => .done hnone) fun r y w hw hy => ?_
    cases hy
    exact hw

/-- The search for missing records does not ask for the policy. -/
theorem unresolvedIds_under (policy : MissingChildPolicy) (rootId : String) :
    (a.under policy).unresolvedIds rootId = a.unresolvedIds rootId := by
  have hf : Follows a (a.under policy) fun _ b b' => b' = b :=
    { id := by
        rintro _ b _ rfl
        rfl
      descent := by
        rintro _ b _ rfl
        rfl
      child := fun _ id _ => .of_eq rfl fun _ _ _ => rfl }
  refine hf.unresolvedIds_eq ?_
  change Option.Rel _ (a.records.get? rootId) (a.records.get? rootId)
  cases a.records.get? rootId with
  | none => exact .none
  | some b => exact .some rfl

/-- Where a missing child stops the walk, the search for a root notes something. -/
theorem unresolvedIds_ne_nil (hfail : a.policy = .fail) {rootId parent child : String}
    (h : a.assemble rootId = .error (.unresolvedChild parent child)) :
    a.unresolvedIds rootId ≠ [] := by
  rcases assemble_eq_error_iff.mp h with ⟨_, he⟩ | ⟨b, hb, hget, hbuild⟩
  · cases he
  · obtain ⟨-, hstops⟩ := build_stops hfail [] true b hb hb hbuild
    have hrecord : ∀ x ∈ [b.id], a.records.get? x ≠ none := by
      intro x hx
      rw [List.mem_singleton.mp hx, RecordMap.get?_of_mem hb]
      exact Option.some_ne_none b
    obtain ⟨more, hmore⟩ := hstops [b.id] (explored_self b.id) hrecord []
    rw [unresolvedIds_of_get? hget, hmore]
    exact List.cons_ne_nil child more

/-- The policies differ in nothing but missing children:
* the walk that may not go on has a tree iff the other has one without a warning of a missing child,
  and the trees and all warnings are then the same;
* where a missing child stops the one walk, it is the first that the other warns of;
* any other error of the one walk is that of the other;
* if the search finds no missing record, both come to the same. -/
theorem assemble_policies_agree (a : Assembler) (rootId : String) :
    (∀ t, (a.under .fail).assemble rootId = .ok t ↔ (a.under .skip).assemble rootId = .ok t ∧
      ∀ parent child, .unresolvedChild parent child ∉ t.warnings) ∧
    (∀ parent child t, (a.under .fail).assemble rootId = .error (.unresolvedChild parent child) →
      (a.under .skip).assemble rootId = .ok t →
      firstMissing t.warnings = some (.unresolvedChild parent child)) ∧
    (∀ e, (∀ parent child, e ≠ .unresolvedChild parent child) →
      (a.under .fail).assemble rootId = .error e → (a.under .skip).assemble rootId = .error e) ∧
    (a.unresolvedIds rootId = [] →
      (a.under .fail).assemble rootId = (a.under .skip).assemble rootId) := by
  have h := assemble_agree a rootId
  refine ⟨fun t => ?_, fun parent child t => h.first, fun e hother hfail => h.error hfail hother,
    fun hnone => ?_⟩
  · rw [h.ok_iff, firstMissing_eq_none_iff]
  · generalize hskip : (a.under .skip).assemble rootId = skip at h ⊢
    generalize hfail : (a.under .fail).assemble rootId = fail at h ⊢
    cases h with
    | done => rfl
    | failed => rfl
    | stopped =>
      have hfound := unresolvedIds_ne_nil rfl hfail
      rw [unresolvedIds_under] at hfound
      exact absurd hnone hfound

theorem gaps_first_missing :
    (gaps.under .fail).assemble "root" = .error (.unresolvedChild "twice" "lost") ∧
    ∃ t, (gaps.under .skip).assemble "root" = .ok t ∧
      firstMissing t.warnings = some (.unresolvedChild "twice" "lost") := by
  have hfail : (gaps.under .fail).assembleWithin 4 "root" =
      some (.error (.unresolvedChild "twice" "lost")) := rfl
  have hskip : ((gaps.under .skip).assembleWithin 4 "root").map (·.toOption.isSome) =
      some true := rfl
  rw [assembleWithin_eq_assemble _ (by decide)] at hfail hskip
  have hstop := Option.some.inj hfail
  obtain ⟨-, hfirst, -⟩ := assemble_policies_agree gaps "root"
  cases h : (gaps.under .skip).assemble "root" with
  | error e =>
    rw [h] at hskip
    cases hskip
  | ok t => exact ⟨hstop, t, rfl, hfirst "twice" "lost" t hstop h⟩

/-- A block that lists itself, behind a missing one. -/
def loopBehindGap : Assembler where
  records := .ofList
    [{ id := "root", blockType := "page" }, { id := "loop", blockType := "toggle" }]
  children := ChildIndex.empty
    |>.set "root" ["gone", "loop"]
    |>.set "loop" ["loop"]

-- the errors can differ: each walk reports the first thing that it cannot pass
example :
    (loopBehindGap.under .fail).assembleWithin 3 "root" =
      some (.error (.unresolvedChild "root" "gone")) ∧
    (loopBehindGap.under .skip).assembleWithin 3 "root" =
      some (.error (.cyclicStructure "loop")) :=
  ⟨rfl, rfl⟩

end Assembler
end Folio
