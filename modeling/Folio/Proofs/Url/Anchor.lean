import Folio.Proofs.Url.Signed
import Folio.Url.Anchor

/-!
# Folio.Proofs.Url.Anchor

Links to blocks and their local form. A link is cut at its last `#`, since no id has one, and so in
one way only, whatever stands in the path.

* `Anchor.splitAtLast_eq_some_iff`: the cut at the last occurrence of a character.
* `Anchor.linkTo`, `Anchor.LeadsTo`: the link to a block on a page, and the addresses that are one.
* `Anchor.blockRef?_eq_some_iff`: the id is found just in the links to blocks.
* `only_block_links_become_local`: the addresses that have a local form of their own.
-/

namespace Folio
namespace Anchor

/-! ## The last occurrence of a character -/

theorem splitAtLast_eq_none {sep : Char} {cs : List Char} (h : sep ∉ cs) :
    splitAtLast sep cs = none := by
  induction cs with
  | nil => rfl
  | cons c rest ih =>
    obtain ⟨hc, hrest⟩ : sep ≠ c ∧ sep ∉ rest := by simpa using h
    rw [splitAtLast, ih hrest]
    exact if_neg (Ne.symm hc)

theorem splitAtLast_append {sep : Char} (front : List Char) {back : List Char} (h : sep ∉ back) :
    splitAtLast sep (front ++ sep :: back) = some (front, back) := by
  induction front with
  | nil =>
    rw [List.nil_append, splitAtLast, splitAtLast_eq_none h]
    exact if_pos rfl
  | cons c rest ih => rw [List.cons_append, splitAtLast, ih]

theorem exists_last_cut {sep : Char} {cs : List Char} (h : sep ∈ cs) :
    ∃ front back, cs = front ++ sep :: back ∧ sep ∉ back := by
  obtain ⟨as, bs, hreverse, has⟩ := List.eq_append_cons_of_mem (List.mem_reverse.mpr h)
  refine ⟨bs.reverse, as.reverse, ?_, fun hmem => has (List.mem_reverse.mp hmem)⟩
  rw [← List.reverse_reverse cs, hreverse]
  simp

theorem splitAtLast_eq_some_iff {sep : Char} {cs front back : List Char} :
    splitAtLast sep cs = some (front, back) ↔ cs = front ++ sep :: back ∧ sep ∉ back := by
  constructor
  · intro h
    have hmem : sep ∈ cs := by
      by_contra hfree
      rw [splitAtLast_eq_none hfree] at h
      cases h
    obtain ⟨front', back', rfl, hback⟩ := exists_last_cut hmem
    rw [splitAtLast_append front' hback] at h
    obtain ⟨rfl, rfl⟩ := Prod.mk.inj (Option.some.inj h)
    exact ⟨rfl, hback⟩
  · rintro ⟨rfl, hback⟩
    exact splitAtLast_append front hback

/-! ## Links to blocks -/

/-- The link to a block on a page of the host. -/
def linkTo (path ref : String) : String :=
  BlockId.host ++ "/" ++ path ++ "#" ++ ref

theorem isIdChar_iff {c : Char} :
    isIdChar c = true ↔ c = '-' ∨ ('a' ≤ c ∧ c ≤ 'f') ∨ Text.isDecimalDigit c = true := by
  simp [isIdChar, or_assoc]

/-- The address is a link to a block: behind the host there is a path on one line, then `#`, then
dashes, letters from `a` to `f` and decimal digits of any script. -/
structure LeadsTo (address path ref : String) : Prop where
  eq : address = linkTo path ref
  path_ne : path ≠ ""
  oneLine : '\n' ∉ path.toList
  ref_ne : ref ≠ ""
  ref_chars : ∀ c ∈ ref.toList, c = '-' ∨ ('a' ≤ c ∧ c ≤ 'f') ∨ Text.isDecimalDigit c = true

theorem LeadsTo.hash_notMem {address path ref : String} (h : LeadsTo address path ref) :
    '#' ∉ ref.toList := by
  intro hmem
  have hchar := isIdChar_iff.mpr (h.ref_chars '#' hmem)
  exact absurd hchar (by decide)

theorem toList_linkTo (path ref : String) : (linkTo path ref).toList =
    (BlockId.host ++ "/").toList ++ (path.toList ++ '#' :: ref.toList) := by
  simp [linkTo]

/-- The block of a link is what stands behind the last `#`. -/
theorem blockRef?_eq_some_iff {address : String} {ref : List Char} :
    blockRef? address = some ref ↔ ∃ path, LeadsTo address path (String.ofList ref) := by
  rw [blockRef?, Option.bind_eq_bind, Option.bind_eq_some_iff]
  constructor
  · rintro ⟨rest, hrest, hcut⟩
    rw [Option.bind_eq_bind, Option.bind_eq_some_iff] at hcut
    obtain ⟨⟨path, ref'⟩, hsplit, hcond⟩ := hcut
    obtain ⟨rfl, -⟩ := splitAtLast_eq_some_iff.mp hsplit
    rw [Asset.after?_eq_some_iff] at hrest
    simp only [Option.ite_none_right_eq_some, Option.some.injEq, Bool.and_eq_true,
      Bool.not_eq_true', List.isEmpty_eq_false_iff, List.contains_eq_mem, decide_eq_false_iff_not,
      List.all_eq_true, isIdChar_iff] at hcond
    obtain ⟨⟨⟨⟨hpath, hline⟩, href⟩, hchars⟩, rfl⟩ := hcond
    refine ⟨String.ofList path, ?_, ?_, ?_, ?_, ?_⟩
    · refine String.toList_inj.mp ?_
      rw [hrest, toList_linkTo, String.toList_ofList, String.toList_ofList]
    · simpa using hpath
    · simpa using hline
    · simpa using href
    · simpa using hchars
  · rintro ⟨path, h⟩
    -- a path may have a `#` of its own, an id has none
    have hhash := h.hash_notMem
    obtain ⟨rfl, hpath, hline, href, hchars⟩ := h
    rw [String.toList_ofList] at hhash hchars
    refine ⟨path.toList ++ '#' :: ref, ?_, ?_⟩
    · rw [Asset.after?_eq_some_iff, toList_linkTo, String.toList_ofList]
    · rw [Option.bind_eq_bind, splitAtLast_append _ hhash, Option.bind_some]
      refine if_pos ?_
      have hall : ref.all isIdChar = true :=
        List.all_eq_true.mpr fun c hc => isIdChar_iff.mpr (hchars c hc)
      have hne : ref ≠ [] := by simpa using href
      simp [hall, hline, hpath, hne]

/-- The local form of a link goes by the id alone. -/
theorem LeadsTo.localAnchor_eq {address path ref : String} (h : LeadsTo address path ref) :
    localAnchor address = "#" ++ BlockId.undashed ref := by
  have hfound : blockRef? address = some ref.toList :=
    blockRef?_eq_some_iff.mpr ⟨path, by rwa [String.ofList_toList]⟩
  rw [localAnchor, hfound]
  exact congrArg (fun s => "#" ++ BlockId.undashed s) String.ofList_toList

theorem LeadsTo.unique {address path ref path' ref' : String} (h : LeadsTo address path ref)
    (h' : LeadsTo address path' ref') : path = path' ∧ ref = ref' := by
  have hlink := congrArg String.toList (h.eq.symm.trans h'.eq)
  rw [toList_linkTo, toList_linkTo] at hlink
  have hsplit := splitAtLast_append path.toList h.hash_notMem
  rw [List.append_cancel_left hlink, splitAtLast_append path'.toList h'.hash_notMem] at hsplit
  obtain ⟨hpath, href⟩ := Prod.mk.inj (Option.some.inj hsplit)
  exact ⟨String.toList_inj.mp hpath.symm, String.toList_inj.mp href.symm⟩

theorem not_leadsTo_local {s path ref : String} : ¬ LeadsTo ("#" ++ s) path ref := by
  intro h
  have hlink := congrArg String.toList h.eq
  rw [toList_linkTo, String.toList_append] at hlink
  exact absurd (List.cons.inj hlink).1 (by decide)

theorem localAnchor_of_not_leadsTo {address : String}
    (h : ∀ path ref, ¬ LeadsTo address path ref) : localAnchor address = address := by
  have hnone : blockRef? address = none := by
    refine Option.eq_none_iff_forall_ne_some.mpr fun ref href => ?_
    obtain ⟨path, hlink⟩ := blockRef?_eq_some_iff.mp href
    exact h path _ hlink
  rw [localAnchor, hnone]

end Anchor

open Anchor in
/-- The addresses that have a local form of their own are the links to blocks. Such a link has one
path and one id only, and becomes `#` with the id without its dashes. Any other address stays as it
is, and so does the local form. -/
theorem only_block_links_become_local (address : String) :
    (localAnchor address ≠ address ↔ ∃ path ref, LeadsTo address path ref) ∧
      (∀ path ref path' ref', LeadsTo address path ref → LeadsTo address path' ref' →
        path = path' ∧ ref = ref') ∧
      (∀ path ref, LeadsTo address path ref →
        localAnchor address = "#" ++ BlockId.undashed ref) ∧
      localAnchor (localAnchor address) = localAnchor address := by
  have hchanged : ∀ path ref, LeadsTo address path ref → localAnchor address ≠ address := by
    intro path ref h hsame
    rw [h.localAnchor_eq] at hsame
    exact not_leadsTo_local (hsame ▸ h)
  refine ⟨⟨fun hne => ?_, fun ⟨path, ref, h⟩ => hchanged path ref h⟩,
    fun path ref path' ref' h h' => h.unique h', fun path ref h => h.localAnchor_eq, ?_⟩
  · by_contra hnone
    exact hne (localAnchor_of_not_leadsTo fun path ref h => hnone ⟨path, ref, h⟩)
  · by_cases hlink : ∃ path ref, LeadsTo address path ref
    · obtain ⟨path, ref, h⟩ := hlink
      rw [h.localAnchor_eq]
      exact localAnchor_of_not_leadsTo fun _ _ => not_leadsTo_local
    · have hplain := localAnchor_of_not_leadsTo fun path ref h => hlink ⟨path, ref, h⟩
      rw [hplain, hplain]

open Anchor in
/-- A link with two `#` and a digit of another script, and one with a letter that no id has. -/
theorem last_hash_leads_to_block :
    let address := linkTo "Plan#2" "1f-٣"
    LeadsTo address "Plan#2" "1f-٣" ∧ localAnchor address = "#1f٣" ∧
      localAnchor (linkTo "Plan" "1F") = linkTo "Plan" "1F" := by
  intro address
  have hchars : "1f-٣".toList.all isIdChar = true := by
    decide +kernel
  have hlink : LeadsTo address "Plan#2" "1f-٣" :=
    ⟨rfl, by decide, by decide, by decide,
      fun c hc => isIdChar_iff.mp (List.all_eq_true.mp hchars c hc)⟩
  obtain ⟨-, -, hlocal, -⟩ := only_block_links_become_local address
  refine ⟨hlink, ?_, ?_⟩
  · rw [hlocal _ _ hlink]
    decide +kernel
  · decide +kernel

end Folio
