import Folio.Proofs.Json.Compact
import Folio.Proofs.RecordMap.LastWrite
import Folio.Proofs.RecordMap.Wrapping
import Mathlib.Data.List.Perm.Basic

/-!
# Folio.Proofs.RecordMap.Reordering

Dumps with their entries in another order. Two entries can denote one block, by their keys in both
spellings of its id or by the ids of the blocks themselves; then the last entry counts.

* `Unambiguous`: blocks of one id say the same.
* `get?_ofList_perm`, `unambiguous_of_get?_last`: the order of blocks is free just if they are.
* `Layout`: the places of a dump where its entries can stand.
* `loads_alike_reordered_iff`: the order of the entries of a dump is free just if their blocks are
  unambiguous.
* `both_spellings_load_by_order`: a dump with both spellings of one id.
-/

namespace Folio

namespace Json

theorem fields?_member (name : String) (front back : List (String × Json)) (v : Json) :
    (object (front ++ (name, v) :: back)).fields? [name] =
      if (front ++ back).any (·.1 == name) then none else some [(name, v)] := by
  rw [fields?_singleton, List.filter_append, List.filter_cons_of_pos (by simp)]
  by_cases hother : (front ++ back).any (·.1 == name)
  · have hlong : 0 < ((front ++ back).filter (·.1 == name)).length :=
      List.length_filter_pos_iff.mpr (List.any_eq_true.mp hother)
    rw [List.filter_append, List.length_append] at hlong
    rw [if_pos hother, if_neg]
    rw [List.length_append, List.length_cons]
    omega
  · have hnone : (front ++ back).filter (·.1 == name) = [] :=
      List.filter_eq_nil_iff.mpr fun m hm hname => hother (List.any_eq_true.mpr ⟨m, hm, hname⟩)
    rw [List.filter_append, List.append_eq_nil_iff] at hnone
    rw [if_neg hother, hnone.1, hnone.2]
    rfl

theorem fields?_of_ne {name name' : String} (h : name ≠ name') (front back : List (String × Json))
    (v : Json) :
    (object (front ++ (name, v) :: back)).fields? [name'] =
      (object (front ++ back)).fields? [name'] := by
  rw [fields?_singleton, fields?_singleton, List.filter_append, List.filter_append,
    List.filter_cons_of_neg (by simpa using h)]

end Json

namespace RecordMap

/-! ## Blocks in another order -/

/-- Blocks of one id, in whatever spelling, are the same but for the spelling. -/
def Unambiguous (blocks : List Block) : Prop :=
  ∀ b ∈ blocks, ∀ c ∈ blocks, BlockId.dashed b.id = BlockId.dashed c.id → b.stored = c.stored

theorem unambiguous_of_nodup {blocks : List Block}
    (h : (blocks.map (BlockId.dashed ·.id)).Nodup) : Unambiguous blocks := by
  intro b hb c hc hid
  rw [List.inj_on_of_nodup_map h hb hc hid]

theorem get?_ofList_of_mem {blocks : List Block} (h : Unambiguous blocks) {b : Block}
    (hb : b ∈ blocks) {id : String} (hid : BlockId.dashed b.id = BlockId.dashed id) :
    (ofList blocks).get? id = some b.stored := by
  rw [get?_ofList]
  cases hlast : Block.lastWith? blocks id with
  | none =>
    have hnone := List.find?_eq_none.mp hlast b (List.mem_reverse.mpr hb)
    simp [hid] at hnone
  | some c =>
    have hc : c ∈ blocks := List.mem_reverse.mp (List.mem_of_find?_eq_some hlast)
    have hcid : BlockId.dashed c.id = BlockId.dashed id := by simpa using List.find?_some hlast
    rw [Option.map_some, h b hb c hc (hid.trans hcid.symm)]

theorem get?_ofList_eq_none {blocks : List Block} {id : String}
    (h : ∀ b ∈ blocks, BlockId.dashed b.id ≠ BlockId.dashed id) :
    (ofList blocks).get? id = none := by
  rw [get?_ofList, Option.map_eq_none_iff, Block.lastWith?, List.find?_eq_none]
  intro b hb
  simpa using h b (List.mem_reverse.mp hb)

/-- Unambiguous blocks may be inserted in any order. -/
theorem get?_ofList_perm {blocks blocks' : List Block} (h : Unambiguous blocks)
    (hperm : blocks.Perm blocks') (id : String) :
    (ofList blocks).get? id = (ofList blocks').get? id := by
  have h' : Unambiguous blocks' := fun b hb c hc =>
    h b (hperm.mem_iff.mpr hb) c (hperm.mem_iff.mpr hc)
  by_cases hid : ∃ b ∈ blocks, BlockId.dashed b.id = BlockId.dashed id
  · obtain ⟨b, hb, hid⟩ := hid
    rw [get?_ofList_of_mem h hb hid, get?_ofList_of_mem h' (hperm.mem_iff.mp hb) hid]
  · have hnone : ∀ b ∈ blocks, BlockId.dashed b.id ≠ BlockId.dashed id := fun b hb heq =>
      hid ⟨b, hb, heq⟩
    rw [get?_ofList_eq_none hnone, get?_ofList_eq_none fun b hb => hnone b (hperm.mem_iff.mpr hb)]

/-- Only unambiguous blocks may be inserted in any order. -/
theorem unambiguous_of_get?_last {blocks : List Block} {m : RecordMap}
    (h : ∀ b ∈ blocks, m.get? b.id = some b.stored) : Unambiguous blocks := by
  intro b hb c hc hid
  have hget := h b hb
  rw [get?_congr m hid, h c hc] at hget
  exact (Option.some.inj hget).symm

/-! ## Entries in another order -/

def blocksOfMembers? (entries : List (String × Json)) : Option (List Block) :=
  (entriesOfMembers? entries).map blocksOfEntries

/-- The blocks of a dump, wrapped or not. -/
def blocks? (v : Json) : Option (List Block) :=
  (wrappedBlocks? v).orElse fun _ => bareBlocks? v

/-- The block of an entry, if it has one. -/
def heldBlock? (e : String × Option Block) : Option Block :=
  e.2.map (blockOfEntry e.1)

theorem ofJson?_eq (v : Json) : ofJson? v = (blocks? v).map ofList := rfl

theorem keepLast_of_nodup {entries : List (String × α)} (h : (entries.map Prod.fst).Nodup) :
    keepLast entries = entries := by
  induction entries with
  | nil => rfl
  | cons e rest ih =>
    obtain ⟨key, v⟩ := e
    rw [List.map_cons, List.nodup_cons] at h
    have hkey : rest.any (·.1 == key) = false := by
      rw [List.any_eq_false]
      intro e he heq
      exact h.1 (List.mem_map.mpr ⟨e, he, by simpa using heq⟩)
    rw [keepLast, hkey, ih h.2]
    rfl

/-- What is read of the entries one by one. -/
theorem entriesOfMembers?_eq_some_iff {members : List (String × Json)}
    {entries : List (String × Option Block)} :
    entriesOfMembers? members = some entries ↔
      List.Forall₂ (fun m e => e.1 = m.1 ∧ entryOfJson? m.2 = some e.2) members entries := by
  induction members generalizing entries with
  | nil => simp [entriesOfMembers?, eq_comm]
  | cons m rest ih =>
    obtain ⟨key, v⟩ := m
    simp only [entriesOfMembers?, Option.bind_eq_bind, Option.bind_eq_some_iff, Option.some.injEq,
      List.forall₂_cons_left_iff]
    constructor
    · rintro ⟨entry, hentry, more, hmore, rfl⟩
      exact ⟨(key, entry), more, ⟨rfl, hentry⟩, ih.mp hmore, rfl⟩
    · rintro ⟨⟨key', entry⟩, more, ⟨rfl, hentry⟩, hmore, rfl⟩
      exact ⟨entry, hentry, more, ih.mpr hmore, rfl⟩

theorem keys_of_entriesOfMembers? {members : List (String × Json)}
    {entries : List (String × Option Block)} (h : entriesOfMembers? members = some entries) :
    entries.map Prod.fst = members.map Prod.fst := by
  have hread := entriesOfMembers?_eq_some_iff.mp h
  clear h
  induction hread with
  | nil => rfl
  | cons hm _ ih => rw [List.map_cons, List.map_cons, hm.1, ih]

theorem blocksOfMembers?_eq_some_iff {members : List (String × Json)} {blocks : List Block}
    (hkeys : (members.map Prod.fst).Nodup) :
    blocksOfMembers? members = some blocks ↔
      ∃ entries, entriesOfMembers? members = some entries ∧
        entries.filterMap heldBlock? = blocks := by
  have hblocks {entries : List (String × Option Block)}
      (h : entriesOfMembers? members = some entries) :
      blocksOfEntries entries = entries.filterMap heldBlock? := by
    have hnodup : (entries.map Prod.fst).Nodup := keys_of_entriesOfMembers? h ▸ hkeys
    rw [blocksOfEntries, keepLast_of_nodup hnodup]
    rfl
  rw [blocksOfMembers?, Option.map_eq_some_iff]
  constructor
  · rintro ⟨entries, hentries, rfl⟩
    exact ⟨entries, hentries, (hblocks hentries).symm⟩
  · rintro ⟨entries, hentries, rfl⟩
    exact ⟨entries, hentries, hblocks hentries⟩

/-- Members in another order have the same entries in another order. -/
theorem exists_entries_of_perm {members members' : List (String × Json)}
    {entries : List (String × Option Block)} (h : entriesOfMembers? members = some entries)
    (hperm : members'.Perm members) :
    ∃ entries', entriesOfMembers? members' = some entries' ∧ entries'.Perm entries := by
  obtain ⟨entries', hread, hperm'⟩ :=
    List.perm_comp_forall₂ hperm (entriesOfMembers?_eq_some_iff.mp h)
  exact ⟨entries', entriesOfMembers?_eq_some_iff.mpr hread, hperm'⟩

/-- Every order of the entries is that of some order of the members. -/
theorem exists_members_of_perm {members : List (String × Json)}
    {entries entries' : List (String × Option Block)} (h : entriesOfMembers? members = some entries)
    (hperm : entries'.Perm entries) :
    ∃ members', members'.Perm members ∧ entriesOfMembers? members' = some entries' := by
  obtain ⟨members', hread, hperm'⟩ :=
    List.perm_comp_forall₂ hperm (entriesOfMembers?_eq_some_iff.mp h).flip
  exact ⟨members', hperm', entriesOfMembers?_eq_some_iff.mpr hread.flip⟩

theorem exists_blocks_of_perm {members members' : List (String × Json)} {blocks : List Block}
    (hkeys : (members.map Prod.fst).Nodup) (hperm : members'.Perm members)
    (h : blocksOfMembers? members = some blocks) :
    ∃ blocks', blocksOfMembers? members' = some blocks' ∧ blocks'.Perm blocks := by
  have hkeys' : (members'.map Prod.fst).Nodup := (hperm.map Prod.fst).nodup_iff.mpr hkeys
  obtain ⟨entries, hentries, rfl⟩ := (blocksOfMembers?_eq_some_iff hkeys).mp h
  obtain ⟨entries', hentries', hperm'⟩ := exists_entries_of_perm hentries hperm
  exact ⟨_, (blocksOfMembers?_eq_some_iff hkeys').mpr ⟨entries', hentries', rfl⟩,
    hperm'.filterMap heldBlock?⟩

/-- Any block of a dump can be made the last one. -/
theorem exists_perm_last {members : List (String × Json)} {blocks : List Block} {b : Block}
    (hkeys : (members.map Prod.fst).Nodup) (h : blocksOfMembers? members = some blocks)
    (hb : b ∈ blocks) :
    ∃ members' before, members'.Perm members ∧
      blocksOfMembers? members' = some (before ++ [b]) := by
  obtain ⟨entries, hentries, rfl⟩ := (blocksOfMembers?_eq_some_iff hkeys).mp h
  obtain ⟨e, he, hheld⟩ := List.mem_filterMap.mp hb
  obtain ⟨front, back, rfl⟩ := List.append_of_mem he
  have hlast : (front ++ back ++ [e]).Perm (front ++ e :: back) :=
    (List.perm_append_singleton e _).trans List.perm_middle.symm
  obtain ⟨members', hperm, hentries'⟩ := exists_members_of_perm hentries hlast
  have hkeys' : (members'.map Prod.fst).Nodup := (hperm.map Prod.fst).nodup_iff.mpr hkeys
  refine ⟨members', (front ++ back).filterMap heldBlock?, hperm, ?_⟩
  refine (blocksOfMembers?_eq_some_iff hkeys').mpr ⟨_, hentries', ?_⟩
  rw [List.filterMap_append, List.filterMap_cons_some hheld, List.filterMap_nil]

/-- What holds of the blocks in their order and in any other one holds of what two orders of the
entries are read as. -/
theorem rel_blocksOfMembers? {R : List Block → List Block → Prop}
    {members members' : List (String × Json)} (hkeys : (members.map Prod.fst).Nodup)
    (hperm : members'.Perm members)
    (hR : ∀ blocks blocks', blocksOfMembers? members = some blocks → blocks'.Perm blocks →
      R blocks blocks') :
    Option.Rel R (blocksOfMembers? members) (blocksOfMembers? members') := by
  cases h : blocksOfMembers? members with
  | some blocks =>
    obtain ⟨blocks', h', hperm'⟩ := exists_blocks_of_perm hkeys hperm h
    rw [h']
    exact .some (hR blocks blocks' h hperm')
  | none =>
    have hkeys' : (members'.map Prod.fst).Nodup := (hperm.map Prod.fst).nodup_iff.mpr hkeys
    cases h' : blocksOfMembers? members' with
    | none => exact .none
    | some blocks' =>
      obtain ⟨blocks, hblocks, -⟩ := exists_blocks_of_perm hkeys' hperm.symm h'
      rw [hblocks] at h
      cases h

/-! ## Dumps -/

/-- Where in a dump its entries stand: in the member `block` of an object, at the head of an array,
or inside a wrapper. -/
inductive Layout where
  | bare (front back : List (String × Json))
  | fields
  | wrapped (front back : List (String × Json)) (inner : Layout)

/-- The dump with the entries in their place. -/
def Layout.dump : Layout → List (String × Json) → Json
  | bare front back, entries => .object (front ++ ("block", .object entries) :: back)
  | fields, entries => .array [.object entries]
  | wrapped front back inner, entries =>
    .object (front ++ ("recordMap", inner.dump entries) :: back)

/-- Readable entries in this place are what is loaded. -/
def Layout.Loads (l : Layout) : Prop :=
  ∀ entries blocks, blocksOfMembers? entries = some blocks → blocks? (l.dump entries) = some blocks

variable {R : List Block → List Block → Prop}

theorem rel_refl (hrefl : ∀ blocks, R blocks blocks) (o : Option (List Block)) :
    Option.Rel R o o := by
  cases o with
  | none => exact .none
  | some blocks => exact .some (hrefl blocks)

theorem bareBlocks?_of_fields? {v : Json} {entries : List (String × Json)}
    (h : v.fields? ["block"] = some [("block", .object entries)]) :
    bareBlocks? v = blocksOfMembers? entries := by
  rw [bareBlocks?, h, blocksOfMembers?]
  change ((entriesOfMembers? entries).bind fun found => some (blocksOfEntries found)) = _
  rw [Option.map_eq_bind]
  rfl

namespace Layout

/-- Where entries stand that are all of what is in a wrapper. -/
theorem loads_wrapped : (wrapped [] [] (bare [] [])).Loads := by
  intro entries blocks h
  have hwrapped : wrappedBlocks? ((wrapped [] [] (bare [] [])).dump entries) =
      bareBlocks? ((bare [] []).dump entries) := rfl
  rw [blocks?, hwrapped, dump, @bareBlocks?_of_fields? _ entries rfl, h]
  rfl

theorem rel_bareBlocks? (hrefl : ∀ blocks, R blocks blocks)
    {entries entries' : List (String × Json)}
    (h : Option.Rel R (blocksOfMembers? entries) (blocksOfMembers? entries')) (l : Layout) :
    Option.Rel R (bareBlocks? (l.dump entries)) (bareBlocks? (l.dump entries')) := by
  cases l with
  | bare front back =>
    have hfields (entries : List (String × Json)) :=
      Json.fields?_member "block" front back (.object entries)
    by_cases hother : (front ++ back).any (·.1 == "block")
    · simp only [hother, if_true] at hfields
      rw [dump, dump, bareBlocks?, bareBlocks?, hfields, hfields]
      exact .none
    · simp only [hother, if_false, Bool.false_eq_true] at hfields
      rw [dump, dump, bareBlocks?_of_fields? (hfields entries),
        bareBlocks?_of_fields? (hfields entries')]
      exact h
  | fields =>
    rw [dump, dump, bareBlocks?_of_fields? rfl, bareBlocks?_of_fields? rfl]
    exact h
  | wrapped front back inner =>
    have hfields (v : Json) :=
      @Json.fields?_of_ne "recordMap" "block" (by decide) front back v
    rw [dump, dump, bareBlocks?, bareBlocks?, hfields, hfields]
    exact rel_refl hrefl _

theorem rel_wrappedBlocks? (hrefl : ∀ blocks, R blocks blocks)
    {entries entries' : List (String × Json)}
    (h : Option.Rel R (blocksOfMembers? entries) (blocksOfMembers? entries')) (l : Layout) :
    Option.Rel R (wrappedBlocks? (l.dump entries)) (wrappedBlocks? (l.dump entries')) := by
  cases l with
  | bare front back =>
    have hfields (v : Json) :=
      @Json.fields?_of_ne "block" "recordMap" (by decide) front back v
    rw [dump, dump, wrappedBlocks?, wrappedBlocks?, hfields, hfields]
    exact rel_refl hrefl _
  | fields => exact .none
  | wrapped front back inner =>
    have hfields (v : Json) := Json.fields?_member "recordMap" front back v
    rw [dump, dump, wrappedBlocks?, wrappedBlocks?, hfields, hfields]
    by_cases hother : (front ++ back).any (·.1 == "recordMap")
    · rw [if_pos hother, if_pos hother]
      exact .none
    · rw [if_neg hother, if_neg hother]
      exact inner.rel_bareBlocks? hrefl h

/-- Of a dump no more counts than what its entries are read as. -/
theorem rel_blocks? (hrefl : ∀ blocks, R blocks blocks) {entries entries' : List (String × Json)}
    (h : Option.Rel R (blocksOfMembers? entries) (blocksOfMembers? entries')) (l : Layout) :
    Option.Rel R (blocks? (l.dump entries)) (blocks? (l.dump entries')) := by
  have hbare := l.rel_bareBlocks? hrefl h
  have hwrapped := l.rel_wrappedBlocks? hrefl h
  unfold blocks?
  generalize wrappedBlocks? (l.dump entries) = o at hwrapped
  generalize wrappedBlocks? (l.dump entries') = o' at hwrapped
  cases hwrapped with
  | none => exact hbare
  | some hblocks => exact .some hblocks

end Layout

/-- Either both fail, or every id finds the same in both. -/
def FindsAlike : Option RecordMap → Option RecordMap → Prop :=
  Option.Rel fun m m' => ∀ id, m.get? id = m'.get? id

theorem FindsAlike.bind_eq {o o' : Option RecordMap} (h : FindsAlike o o') (id : String) :
    (o.bind (·.get? id)) = o'.bind (·.get? id) := by
  cases h with
  | none => rfl
  | some h => exact h id

theorem toOption_ofText {d : String} {v : Json} (h : Json.ofText? d = some v) :
    (ofText d).toOption = ofJson? v := by
  rw [ofText_of_ofText? h]
  cases ofJson? v <;> rfl

theorem findsAlike_of_rel {o o' : Option (List Block)}
    (h : Option.Rel (fun blocks blocks' => ∀ id,
      (ofList blocks).get? id = (ofList blocks').get? id) o o') :
    FindsAlike (o.map ofList) (o'.map ofList) := by
  cases h with
  | none => exact .none
  | some h => exact .some h

/-- The entries of a dump, with a key each, may stand in any order if their blocks are unambiguous:
the dump is read or refused as before, and every id finds the same. Otherwise they may not, wherever
in the dump they stand, as long as they are what is loaded. -/
theorem loads_alike_reordered_iff (l : Layout) (entries : List (String × Json))
    (hkeys : (entries.map Prod.fst).Nodup) :
    (∀ entries', entries'.Perm entries →
      (ofJson? (l.dump entries)).isSome = (ofJson? (l.dump entries')).isSome) ∧
    ((∀ blocks, blocksOfMembers? entries = some blocks → Unambiguous blocks) →
      ∀ entries', entries'.Perm entries → ∀ d d', Json.ofText? d = some (l.dump entries) →
        Json.ofText? d' = some (l.dump entries') →
        FindsAlike (ofText d).toOption (ofText d').toOption) ∧
    (l.Loads → ∀ blocks, blocksOfMembers? entries = some blocks →
      ((∀ entries', entries'.Perm entries →
        FindsAlike (ofJson? (l.dump entries)) (ofJson? (l.dump entries'))) ↔
          Unambiguous blocks)) := by
  have halike (h : ∀ blocks, blocksOfMembers? entries = some blocks → Unambiguous blocks)
      {entries' : List (String × Json)} (hperm : entries'.Perm entries) :
      FindsAlike (ofJson? (l.dump entries)) (ofJson? (l.dump entries')) := by
    refine findsAlike_of_rel (l.rel_blocks? (fun _ _ => rfl) ?_)
    exact rel_blocksOfMembers? hkeys hperm fun blocks blocks' hblocks hperm' id =>
      get?_ofList_perm (h blocks hblocks) hperm'.symm id
  refine ⟨fun entries' hperm => ?_, fun h entries' hperm d d' hd hd' => ?_,
    fun hl blocks hblocks => ⟨fun h => ?_, fun h entries' hperm => ?_⟩⟩
  · have hread := l.rel_blocks? (R := fun _ _ => True) (fun _ => trivial)
      (rel_blocksOfMembers? hkeys hperm fun _ _ _ _ => trivial)
    rw [ofJson?_eq, ofJson?_eq]
    generalize blocks? (l.dump entries) = o at hread
    generalize blocks? (l.dump entries') = o' at hread
    cases hread <;> rfl
  · rw [toOption_ofText hd, toOption_ofText hd']
    exact halike h hperm
  · -- each block is found in the given order, because it is found where it stands last
    refine unambiguous_of_get?_last (m := ofList blocks) fun b hb => ?_
    obtain ⟨entries', before, hperm, hlast⟩ := exists_perm_last hkeys hblocks hb
    have hfinds := h entries' hperm
    rw [ofJson?_eq, ofJson?_eq, hl entries blocks hblocks, hl entries' _ hlast] at hfinds
    cases hfinds with
    | some hfinds =>
      rw [hfinds, get?_ofList, Block.lastWith?_concat, if_pos rfl]
      rfl
  · refine halike (fun blocks' hblocks' => ?_) hperm
    rw [hblocks] at hblocks'
    exact Option.some.inj hblocks' ▸ h

/-- An entry for a block of a type. -/
def typedEntry (key type : String) : String × Json :=
  (key, .object [("value", .object [("type", .string type)])])

/-- A block under its key, one under an id of its own, and no block. -/
def threeEntries : List (String × Json) :=
  [typedEntry "0eeee000ccccbbbbaaaa123450000000" "page",
   ("k", .object [("value", .object [("id", .string "x"), ("type", .string "text")])]),
   ("none", .object [])]

theorem threeEntries_load_alike :
    (threeEntries.map Prod.fst).Nodup ∧
      FindsAlike (ofText (Layout.dump (.bare [] []) threeEntries).compact).toOption
        (ofText (Layout.dump (.bare [] []) threeEntries.reverse).compact).toOption ∧
      ∀ entries, entries.Perm threeEntries →
        FindsAlike (ofJson? (Layout.dump (.wrapped [] [] (.bare [] [])) threeEntries))
          (ofJson? (Layout.dump (.wrapped [] [] (.bare [] [])) entries)) := by
  have hkeys : (threeEntries.map Prod.fst).Nodup := by decide
  have hblocks : ∀ blocks, blocksOfMembers? threeEntries = some blocks → Unambiguous blocks := by
    rintro _ ⟨⟩
    exact unambiguous_of_nodup (by decide +kernel)
  obtain ⟨-, halike, -⟩ := loads_alike_reordered_iff (.bare [] []) threeEntries hkeys
  obtain ⟨-, -, hloads⟩ :=
    loads_alike_reordered_iff (.wrapped [] [] (.bare [] [])) threeEntries hkeys
  refine ⟨hkeys, halike hblocks _ (List.reverse_perm _) _ _ ?_ ?_, ?_⟩
  · exact Json.ofText?_compact (by decide) (by decide)
  · exact Json.ofText?_compact (by decide) (by decide)
  exact (hloads Layout.loads_wrapped _ rfl).mpr (hblocks _ rfl)

/-- A block in both spellings of its id, of another type in each. -/
def bothSpellings : List (String × Json) :=
  [typedEntry "0eeee000ccccbbbbaaaa123450000000" "text",
   typedEntry "0eeee000-cccc-bbbb-aaaa-123450000000" "page"]

/-- Of two entries for one block the later one counts. -/
theorem both_spellings_load_by_order :
    ¬ ∀ (l : Layout) (entries entries' : List (String × Json)) (d d' : String),
      (entries.map Prod.fst).Nodup → entries'.Perm entries →
      Json.ofText? d = some (l.dump entries) → Json.ofText? d' = some (l.dump entries') →
      FindsAlike (ofText d).toOption (ofText d').toOption := by
  intro h
  have hread := @Json.ofText?_compact (Layout.dump (.bare [] []) bothSpellings)
    (by decide) (by decide)
  have hread' := @Json.ofText?_compact (Layout.dump (.bare [] []) bothSpellings.reverse)
    (by decide) (by decide)
  have hfinds := h (.bare [] []) bothSpellings bothSpellings.reverse _ _ (by decide)
    (List.reverse_perm _) hread hread'
  rw [toOption_ofText hread, toOption_ofText hread'] at hfinds
  have hblock := hfinds.bind_eq "0eeee000ccccbbbbaaaa123450000000"
  have htype := congrArg (Option.map (·.blockType)) hblock
  revert htype
  decide +kernel

end RecordMap
end Folio
