import Folio.Proofs.Json.Documents
import Folio.RecordMap.Dump

/-!
# Folio.Proofs.RecordMap.Wrapping

Dumps with and without a wrapper. Both forms are tried on every text, and the bare form ignores
members that it does not know. So a wrapped dump that cannot be read is read as a bare dump without
blocks.

* `Malformed`: what is wrong with a dump that is not wrapped.
* `ofText_wrapped`: what is loaded from the wrapped text.
* `loads_alike_wrapped_iff`: when the text and the wrapped text load the same.
-/

namespace Folio

namespace Json

/-- A record of one field sets it at most once. -/
theorem fields?_singleton (name : String) (members : List (String × Json)) :
    (object members).fields? [name] =
      if (members.filter (·.1 == name)).length ≤ 1 then some (members.filter (·.1 == name))
      else none := by
  have hknown : (members.filter fun m => [name].contains m.1) = members.filter (·.1 == name) :=
    List.filter_congr fun m _ => by rw [List.contains_cons, List.contains_nil, Bool.or_false]
  have hname : ∀ m ∈ members.filter (·.1 == name), m.1 = name := by
    intro m hm
    simpa using (List.mem_filter.mp hm).2
  simp only [fields?, hknown]
  generalize members.filter (·.1 == name) = known at hname
  match known, hname with
  | [], _ => rfl
  | [m], _ => rfl
  | m :: m' :: rest, hname =>
    have heq : m.1 = m'.1 := (hname m (by simp)).trans (hname m' (by simp)).symm
    rw [if_neg (by simp [heq]), if_neg (by simp)]

end Json

namespace RecordMap

def wrapped (d : String) : String :=
  Json.member "recordMap" d

/-- Either both fail, or both load the same blocks. -/
def Alike : Except DumpError RecordMap → Except DumpError RecordMap → Prop
  | .ok m, .ok m' => ∀ b, b ∈ m.blocks ↔ b ∈ m'.blocks
  | .error _, .error _ => True
  | _, _ => False

/-- What is wrong with the members of a dump that is not wrapped. -/
inductive Malformed (members : List (String × Json)) : Prop where
  | repeated (h : 1 < members.countP (·.1 == "block"))
  | shape {v : Json} (h : ("block", v) ∈ members) (hv : ∀ entries, v ≠ .object entries)
  | entry {entries : List (String × Json)} {e : String × Json}
      (h : ("block", .object entries) ∈ members) (he : e ∈ entries)
      (hbad : entryOfJson? e.2 = none)

theorem entriesOfMembers?_eq_none_iff {members : List (String × Json)} :
    entriesOfMembers? members = none ↔ ∃ e ∈ members, entryOfJson? e.2 = none := by
  induction members with
  | nil => simp [entriesOfMembers?]
  | cons e rest ih =>
    obtain ⟨key, v⟩ := e
    simp only [entriesOfMembers?, List.mem_cons, or_and_right, exists_or, exists_eq_left, ← ih]
    cases entryOfJson? v <;> cases entriesOfMembers? rest <;> simp

theorem bareBlocks?_of_absent {members : List (String × Json)}
    (h : members.filter (·.1 == "block") = []) : bareBlocks? (.object members) = some [] := by
  rw [bareBlocks?, Json.fields?_singleton, h]
  rfl

theorem bareBlocks?_of_present {members : List (String × Json)} {v : Json}
    (h : members.filter (·.1 == "block") = [("block", v)]) :
    bareBlocks? (.object members) = (entriesOfJson? v).map blocksOfEntries := by
  rw [bareBlocks?, Json.fields?_singleton, h]
  cases hv : entriesOfJson? v <;> simp [Json.defaulted?, hv]

theorem bareBlocks?_of_repeated {members : List (String × Json)}
    (h : 1 < (members.filter (·.1 == "block")).length) : bareBlocks? (.object members) = none := by
  rw [bareBlocks?, Json.fields?_singleton, if_neg (by omega)]
  rfl

theorem entriesOfJson?_eq_none_iff {v : Json} :
    entriesOfJson? v = none ↔
      (∀ entries, v ≠ .object entries) ∨
      ∃ entries, v = .object entries ∧ ∃ e ∈ entries, entryOfJson? e.2 = none := by
  cases v with
  | object entries => simp [entriesOfJson?, entriesOfMembers?_eq_none_iff]
  | _ => simp [entriesOfJson?]

theorem bareBlocks?_eq_none_iff {members : List (String × Json)} :
    bareBlocks? (.object members) = none ↔ Malformed members := by
  have hmem : ∀ v, ("block", v) ∈ members ↔ ("block", v) ∈ members.filter (·.1 == "block") := by
    intro v
    simp
  have hcount : members.countP (·.1 == "block") = (members.filter (·.1 == "block")).length :=
    List.countP_eq_length_filter
  have hname : ∀ m ∈ members.filter (·.1 == "block"), m.1 = "block" := by
    intro m hm
    simpa using (List.mem_filter.mp hm).2
  -- a record may set its field once: by the number of members of that name
  cases hknown : members.filter (·.1 == "block") with
  | nil =>
    rw [bareBlocks?_of_absent hknown]
    refine ⟨(fun h => nomatch h), fun h => ?_⟩
    rw [hknown] at hcount hmem
    cases h with
    | repeated h =>
      rw [hcount] at h
      cases h
    | shape h => cases (hmem _).mp h
    | entry h => cases (hmem _).mp h
  | cons m rest =>
    cases rest with
    | nil =>
      obtain ⟨name, v⟩ := m
      obtain rfl : name = "block" := hname (name, v) (by rw [hknown]; exact List.mem_cons_self)
      rw [bareBlocks?_of_present hknown, Option.map_eq_none_iff, entriesOfJson?_eq_none_iff]
      rw [hknown] at hcount hmem
      constructor
      · rintro (hv | ⟨entries, rfl, e, he, hbad⟩)
        · exact .shape ((hmem v).mpr List.mem_cons_self) hv
        · exact .entry ((hmem _).mpr List.mem_cons_self) he hbad
      · intro h
        cases h with
        | repeated h =>
          rw [hcount] at h
          exact absurd h (Nat.lt_irrefl 1)
        | shape h hv =>
          cases List.mem_singleton.mp ((hmem _).mp h)
          exact .inl hv
        | entry h he hbad =>
          cases List.mem_singleton.mp ((hmem _).mp h)
          exact .inr ⟨_, rfl, _, he, hbad⟩
    | cons m' more =>
      have hlong : 1 < (members.filter (·.1 == "block")).length := by
        rw [hknown]
        simp
      rw [bareBlocks?_of_repeated hlong]
      exact ⟨fun _ => .repeated (hcount ▸ hlong), fun _ => rfl⟩

/-! ## The wrapped text -/

theorem ofJson?_wrapped (v : Json) :
    ofJson? (.object [("recordMap", v)]) = some (ofList ((bareBlocks? v).getD [])) := by
  have hwrapped : wrappedBlocks? (.object [("recordMap", v)]) = bareBlocks? v := rfl
  have hbare : bareBlocks? (.object [("recordMap", v)]) = some [] := rfl
  rw [ofJson?, hwrapped, hbare]
  cases bareBlocks? v <;> rfl

theorem ofText_of_ofText? {d : String} {v : Json} (h : Json.ofText? d = some v) :
    ofText d = (ofJson? v).elim (.error .wrongShape) .ok := by
  simp only [ofText, h]
  cases ofJson? v <;> rfl

/-- A wrapper around a value is never refused. -/
theorem ofText_wrapped {d : String} {v : Json} (h : Json.ofText? d = some v)
    (hroom : v.nesting < Json.Written.maxDepth) :
    ofText (wrapped d) = .ok (ofList ((bareBlocks? v).getD [])) := by
  have htext := Json.ofText?_member (k := "recordMap") (by decide) h
  rw [if_pos hroom] at htext
  rw [wrapped, ofText_of_ofText? htext, ofJson?_wrapped, Option.elim_some]

/-- The wrapped text loads the blocks of the dump, and nothing where the dump is malformed. Only
the text without a wrapper is refused then. So the two agree on a dump that is itself in no wrapper
if and only if it is well formed, and on one that is in a wrapper if and only if the blocks beside
that wrapper are those inside it. -/
theorem loads_alike_wrapped_iff (d : String) (members : List (String × Json))
    (h : Json.ofText? d = some (.object members))
    (hroom : (Json.object members).nesting < Json.Written.maxDepth) :
    (Malformed members → ofText (wrapped d) = .ok empty) ∧
    (∀ blocks, bareBlocks? (.object members) = some blocks →
      ofText (wrapped d) = .ok (ofList blocks)) ∧
    (wrappedBlocks? (.object members) = none →
      (Alike (ofText d) (ofText (wrapped d)) ↔ ¬ Malformed members)) ∧
    (∀ inner, wrappedBlocks? (.object members) = some inner →
      (Alike (ofText d) (ofText (wrapped d)) ↔
        ∀ b, b ∈ (ofList inner).blocks ↔
          b ∈ (ofList ((bareBlocks? (.object members)).getD [])).blocks)) := by
  have hwrapped := ofText_wrapped h hroom
  have hbare := ofText_of_ofText? h
  refine ⟨fun hbad => ?_, fun blocks hblocks => ?_, fun hnone => ?_, fun inner hinner => ?_⟩
  · rw [hwrapped, bareBlocks?_eq_none_iff.mpr hbad]
    rfl
  · rw [hwrapped, hblocks]
    rfl
  · rw [hwrapped, hbare, ofJson?, hnone, ← bareBlocks?_eq_none_iff]
    cases hblocks : bareBlocks? (.object members) with
    | none => simp [Alike]
    | some blocks => simp [Alike]
  · rw [hwrapped, hbare, ofJson?, hinner]
    rfl

/-- A dump of one block with a type. -/
def oneBlock (type : String) : String :=
  Json.member "block" (Json.member "a" (Json.member "value" (Json.member "type" type)))

theorem ofText?_oneBlock {type : String} {v : Json} (h : Json.ofText? type = some v)
    (hflat : v.nesting = 0) :
    Json.ofText? (oneBlock type) =
      some (.object [("block", .object [("a", .object [("value", .object [("type", v)])])])]) := by
  have htype := Json.ofText?_member (k := "type") (by decide) h
  rw [if_pos (by simp [hflat, Json.Written.maxDepth])] at htype
  have hvalue := Json.ofText?_member (k := "value") (by decide) htype
  rw [if_pos (by simp [Json.nesting, Json.nestingMembers, hflat, Json.Written.maxDepth])] at hvalue
  have ha := Json.ofText?_member (k := "a") (by decide) hvalue
  rw [if_pos (by simp [Json.nesting, Json.nestingMembers, hflat, Json.Written.maxDepth])] at ha
  have hblock := Json.ofText?_member (k := "block") (by decide) ha
  rw [if_pos (by simp [Json.nesting, Json.nestingMembers, hflat, Json.Written.maxDepth])] at hblock
  exact hblock

theorem ofText?_five : Json.ofText? "5" = some (.number (.int 5)) := by
  rw [Json.ofText?, Json.Written.ofText?, Json.Token.ofChars?,
    ← Json.Token.collectWithin_eq_collect? (by decide : _ < 2)]
  rfl

theorem ofText?_page : Json.ofText? "\"page\"" = some (.string "page") := by
  rw [Json.ofText?, Json.Written.ofText?, Json.Token.ofChars?,
    ← Json.Token.collectWithin_eq_collect? (by decide : _ < 7)]
  rfl

theorem page_loads_alike_wrapped :
    Alike (ofText (oneBlock "\"page\"")) (ofText (wrapped (oneBlock "\"page\""))) := by
  have hread := ofText?_oneBlock ofText?_page rfl
  obtain ⟨-, -, halike, -⟩ := loads_alike_wrapped_iff (oneBlock "\"page\"") _ hread (by decide)
  refine (halike rfl).mpr fun hbad => ?_
  have hnone := bareBlocks?_eq_none_iff.mpr hbad
  cases hnone

/-- A type that is a number is an error in a dump, and a dump without blocks inside a wrapper. -/
theorem numbered_type_lost_when_wrapped :
    (∃ members, Json.ofText? (oneBlock "5") = some (.object members) ∧
      (Json.object members).nesting < Json.Written.maxDepth) ∧
    ofText (oneBlock "5") = .error .wrongShape ∧
    ofText (wrapped (oneBlock "5")) = .ok empty ∧
    ¬ Alike (ofText (oneBlock "5")) (ofText (wrapped (oneBlock "5"))) := by
  have hread := ofText?_oneBlock ofText?_five rfl
  have hbare : ofText (oneBlock "5") = .error .wrongShape := ofText_of_ofText? hread
  have hwrapped : ofText (wrapped (oneBlock "5")) = .ok empty :=
    ofText_wrapped hread (by decide)
  refine ⟨⟨_, hread, by decide⟩, hbare, hwrapped, ?_⟩
  rw [hbare, hwrapped]
  exact id

example : wrapped (oneBlock "5") =
    "\x7b\"recordMap\":\x7b\"block\":\x7b\"a\":\x7b\"value\":\x7b\"type\":5\x7d\x7d\x7d\x7d\x7d" := by
  decide

end RecordMap
end Folio
