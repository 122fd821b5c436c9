import Folio.Proofs.Url.Signed

/-!
# Folio.Proofs.Url.Storage

What becomes of the address of an upload on the signed route. Its query is cut off, and the first
dotted name of a store is written with a dash. The address is meant to lose nothing else; this holds
if the place of uploads comes before the query, and the dotted name stands in the host if it stands
anywhere.

* `Asset.SplitsAt`, `Asset.RespelledInHost`: host and path of an address, and addresses that are the
  same but for the name of the store in the host.
* `Asset.isSecure_firstReplaced`: respelling the name makes no upload and loses none.
* `Asset.respelledInHost_iff`: when the first dotted name is one in the host.
* `proxied_undamaged_iff`: exactly which uploads keep their address.
-/

namespace Folio
namespace Asset

/-- The name of the regional store as it stands in old addresses. -/
def dottedStore : List Char := "s3.us-west".toList

/-- The name of the regional store as the signed route wants it. -/
def dashedStore : List Char := "s3-us-west".toList

/-! ## Respelling keeps uploads -/

/-- No dot or dash in a text is its last character or has a `u` behind it. -/
def staysApart : List Char → Bool
  | [] => true
  | c :: rest => (!(c == '.' || c == '-') || rest.head?.any (· != 'u')) && staysApart rest

section

variable {c d : Char} (hc : c = '.' ∨ c = '-') (hd : d = '.' ∨ d = '-')

include hc

theorem isPrefixOf_mark {x : Char} {rest : List Char} (h : staysApart (x :: rest) = true)
    (back : List Char) : (x :: rest).isPrefixOf (c :: 'u' :: back) = false := by
  rw [List.isPrefixOf_cons_cons]
  by_cases hx : x = c
  · subst hx
    cases rest with
    | nil => rcases hc with rfl | rfl <;> cases h
    | cons y rest =>
      have hy : y ≠ 'u' := by
        rintro rfl
        rcases hc with rfl | rfl <;> simp [staysApart] at h
      rw [List.isPrefixOf_cons_cons, beq_false_of_ne hy, Bool.false_and, Bool.and_false]
  · rw [beq_false_of_ne hx, Bool.false_and]

include hd

theorem isPrefixOf_respelled {marker : List Char} (hmarker : staysApart marker = true)
    (front back : List Char) :
    marker.isPrefixOf (front ++ c :: 'u' :: back) =
      marker.isPrefixOf (front ++ d :: 'u' :: back) := by
  induction front generalizing marker with
  | nil =>
    cases marker with
    | nil => rfl
    | cons x rest =>
      rw [List.nil_append, List.nil_append, isPrefixOf_mark hc hmarker, isPrefixOf_mark hd hmarker]
  | cons a front ih =>
    cases marker with
    | nil => rfl
    | cons x rest =>
      rw [staysApart, Bool.and_eq_true] at hmarker
      rw [List.cons_append, List.cons_append, List.isPrefixOf_cons_cons,
        List.isPrefixOf_cons_cons, ih hmarker.2]

theorem followsGap_respelled {marker : List Char} (hmarker : staysApart marker = true)
    (front back : List Char) :
    followsGap marker (front ++ c :: 'u' :: back) =
      followsGap marker (front ++ d :: 'u' :: back) := by
  induction front with
  | nil => rcases hc with rfl | rfl <;> rcases hd with rfl | rfl <;> rfl
  | cons a front ih =>
    rw [List.cons_append, List.cons_append, followsGap, followsGap, ih,
      isPrefixOf_respelled hc hd hmarker]

/-- An upload stays one if a dot or a dash in front of a `u` is exchanged. -/
theorem isSecure_of_respelled {u v : String} {front back : List Char}
    (hu : u.toList = front ++ c :: 'u' :: back) (hv : v.toList = front ++ d :: 'u' :: back)
    (h : isSecure u = true) : isSecure v = true := by
  obtain ⟨rest, hrest, hgap⟩ := isSecure_iff.mp h
  -- the beginning of the address has no dot and no dash
  have hstart : ∃ name, front = "https://s3".toList ++ name ∧ rest = name ++ c :: 'u' :: back := by
    rw [hu, List.append_eq_append_iff] at hrest
    obtain ⟨tail, heq, hback⟩ | hname := hrest
    · cases tail with
      | nil => exact ⟨[], by simpa using heq.symm, by simpa using hback.symm⟩
      | cons x tail =>
        have hmem : c ∈ "https://s3".toList := by
          rw [heq, (List.cons.inj hback).1]
          simp
        rcases hc with rfl | rfl <;> exact absurd hmem (by decide)
    · exact hname
  obtain ⟨name, rfl, rfl⟩ := hstart
  refine isSecure_iff.mpr ⟨name ++ d :: 'u' :: back, by rw [hv, List.append_assoc], ?_⟩
  rwa [← followsGap_respelled hc hd (by decide)]

end

theorem isSecure_firstReplaced {base cleaned : List Char}
    (h : FirstReplaced dottedStore dashedStore base cleaned) :
    isSecure (String.ofList cleaned) = isSecure (String.ofList base) := by
  cases h with
  | absent => rfl
  | @found front back =>
    obtain ⟨name, rest, hdotted, hdashed⟩ : ∃ name rest,
        dottedStore = name ++ '.' :: 'u' :: rest ∧ dashedStore = name ++ '-' :: 'u' :: rest :=
      ⟨['s', '3'], "s-west".toList, rfl, rfl⟩
    have hbase : (String.ofList (front ++ dottedStore ++ back)).toList =
        (front ++ name) ++ '.' :: 'u' :: (rest ++ back) := by
      rw [String.toList_ofList, hdotted]
      simp only [List.append_assoc, List.cons_append]
    have hcleaned : (String.ofList (front ++ dashedStore ++ back)).toList =
        (front ++ name) ++ '-' :: 'u' :: (rest ++ back) := by
      rw [String.toList_ofList, hdashed]
      simp only [List.append_assoc, List.cons_append]
    exact Bool.eq_iff_iff.mpr
      ⟨isSecure_of_respelled (.inr rfl) (.inl rfl) hcleaned hbase,
        isSecure_of_respelled (.inl rfl) (.inr rfl) hbase hcleaned⟩

/-! ## Host and path -/

/-- The host of an address is what stands between `https://` and the next slash, the path is the
rest. -/
structure SplitsAt (address host path : List Char) : Prop where
  eq : address = "https://".toList ++ host ++ path
  host_plain : '/' ∉ host
  path_rooted : path = [] ∨ ∃ rest, path = '/' :: rest

/-- The second address is the first one, but that in the host the dotted name of a store may be
written with a dash. -/
def RespelledInHost (base address : List Char) : Prop :=
  ∃ host host' path, SplitsAt base host path ∧ address = "https://".toList ++ host' ++ path ∧
    (host' = host ∨ ∃ front back,
      host = front ++ dottedStore ++ back ∧ host' = front ++ dashedStore ++ back)

/-- The name of a store does not reach into `https://`. -/
theorem exists_front_of_append {host front back : List Char}
    (h : "https://".toList ++ host = front ++ dottedStore ++ back) :
    ∃ front', front = "https://".toList ++ front' ∧ host = front' ++ dottedStore ++ back := by
  rw [List.append_assoc, List.append_eq_append_iff] at h
  obtain ⟨front', hfront, hhost⟩ | ⟨tail, hstart, hback⟩ := h
  · exact ⟨front', hfront, by rw [hhost, List.append_assoc]⟩
  · cases tail with
    | nil =>
      rw [List.append_nil] at hstart
      exact ⟨[], by rw [hstart, List.append_nil], hback.symm⟩
    | cons c tail =>
      have hlength : 8 = front.length + (tail.length + 1) := by
        simpa using congrArg List.length hstart
      -- what is left of `https://` ends with a slash, and there is none in the name
      have hslash : '/' ∈ c :: tail := by
        have hdrops : ∀ k < 8, '/' ∈ "https://".toList.drop k := by
          decide
        have hdrop := hdrops front.length (by omega)
        rwa [hstart, List.drop_left] at hdrop
      have htail : c :: tail <+: dottedStore := by
        have hname : dottedStore <+: c :: tail ++ host := ⟨back, hback⟩
        have hlong : (c :: tail).length ≤ dottedStore.length := by
          change tail.length + 1 ≤ 10
          omega
        exact List.prefix_of_prefix_length_le (List.prefix_append _ _) hname hlong
      exact absurd (htail.subset hslash) (by decide)

/-- Where the host holds a dotted name, the first one of the address ends within the host. -/
theorem SplitsAt.exists_of_found {front back host path : List Char}
    (hsplit : SplitsAt (front ++ dottedStore ++ back) host path)
    (hfirst : ∀ front' back', front ++ dottedStore ++ back = front' ++ dottedStore ++ back' →
      front.length ≤ front'.length)
    (hname : dottedStore <:+: host) :
    ∃ front' rest, front = "https://".toList ++ front' ∧ host = front' ++ dottedStore ++ rest ∧
      back = rest ++ path := by
  have heq := hsplit.eq
  have hwithin : front ++ dottedStore <+: "https://".toList ++ host := by
    obtain ⟨front', back', rfl⟩ := hname
    have hstart : front.length ≤ ("https://".toList ++ front').length := by
      refine hfirst _ (back' ++ path) ?_
      rw [heq]
      simp only [List.append_assoc]
    have hlength : (front ++ dottedStore).length ≤
        ("https://".toList ++ (front' ++ dottedStore ++ back')).length := by
      simp only [List.length_append] at hstart ⊢
      omega
    exact List.prefix_of_prefix_length_le (List.prefix_append _ _) ⟨path, heq.symm⟩ hlength
  obtain ⟨rest, hrest⟩ := hwithin
  obtain ⟨front', rfl, rfl⟩ := exists_front_of_append hrest.symm
  refine ⟨front', rest, rfl, rfl, ?_⟩
  simpa only [List.append_assoc, List.append_cancel_left_eq] using heq

/-- The first dotted name is one in the host, if there is any. -/
theorem respelledInHost_iff {base cleaned : List Char}
    (h : FirstReplaced dottedStore dashedStore base cleaned) :
    RespelledInHost base cleaned ↔
      ∃ host path, SplitsAt base host path ∧ (dottedStore <:+: base → dottedStore <:+: host) := by
  constructor
  · rintro ⟨host, host', path, hsplit, hcleaned, hhost⟩
    refine ⟨host, path, hsplit, fun hoccurs => ?_⟩
    obtain rfl | ⟨front, back, rfl, -⟩ := hhost
    · cases h with
      | absent habsent => exact absurd hoccurs habsent
      | found =>
        rw [← hsplit.eq, List.append_left_inj, List.append_right_inj] at hcleaned
        exact absurd hcleaned (by decide)
    · exact ⟨front, back, rfl⟩
  · rintro ⟨host, path, hsplit, hoccurs⟩
    cases h with
    | absent habsent => exact ⟨host, host, path, hsplit, hsplit.eq, .inl rfl⟩
    | @found front back hfirst =>
      obtain ⟨front', rest, rfl, rfl, rfl⟩ :=
        hsplit.exists_of_found hfirst (hoccurs ⟨front, back, rfl⟩)
      exact ⟨_, front' ++ dashedStore ++ rest, path, hsplit, by simp only [List.append_assoc],
        .inr ⟨front', rest, rfl, rfl⟩⟩

/-- A host is what the address holds from `https://` up to the next slash. -/
theorem SplitsAt.host_eq {address host path : List Char} (h : SplitsAt address host path) :
    host = (address.drop 8).takeWhile (· != '/') := by
  have hrest : address.drop 8 = host ++ path := by
    rw [h.eq, List.append_assoc]
    rfl
  have hstop : path.takeWhile (· != '/') = [] := by
    obtain rfl | ⟨rest, rfl⟩ := h.path_rooted <;> rfl
  rw [hrest, takeWhile_ne_append h.host_plain, hstop, List.append_nil]

theorem firstReplaced_clean {base : List Char} {u : String} (h : IsBaseOf base u.toList) :
    FirstReplaced dottedStore dashedStore base (clean u) := by
  rw [h.eq_takeWhile]
  exact firstReplaced_replaceFirst (by decide) dashedStore _

end Asset

open Asset in
/-- The address that a signed address stands for is that of the same upload, without the query and
with the dotted name of the store respelled in the host, exactly if the address is one of an upload
already without its query, and the dotted name stands in the host if it stands before the query at
all. -/
theorem proxied_undamaged_iff (b u : String) (w : Option Float) (h : isSecure u = true) :
    ∃ base address : String, IsBaseOf base.toList u.toList ∧
      proxied? (imageUrl b u w) = some address ∧
      (isSecure address = true ∧ RespelledInHost base.toList address.toList ↔
        isSecure base = true ∧ ∃ host path, SplitsAt base.toList host path ∧
          ("s3.us-west".toList <:+: base.toList → "s3.us-west".toList <:+: host)) := by
  have hbase := isBaseOf_takeWhile u.toList
  have hcleaned := firstReplaced_clean hbase
  refine ⟨String.ofList (u.toList.takeWhile (· != '?')), String.ofList (clean u), ?_,
    proxied?_imageUrl h b w, ?_⟩
  · rwa [String.toList_ofList]
  · rw [isSecure_firstReplaced hcleaned, String.toList_ofList, String.toList_ofList,
      respelledInHost_iff hcleaned]
    rfl

open Asset in
theorem oldUpload_undamaged :
    let u := "https://s3.us-west-2.amazonaws.com/secure.notion-static.com/s3.us-west/a?sig=/1"
    isSecure u = true ∧ ∃ base address : String, IsBaseOf base.toList u.toList ∧
      proxied? (imageUrl "b1" u none) = some address ∧ isSecure address = true ∧
      RespelledInHost base.toList address.toList := by
  intro u
  have hsecure : isSecure u = true := by
    decide
  obtain ⟨base, address, hbase, haddress, hiff⟩ := proxied_undamaged_iff "b1" u none hsecure
  obtain rfl :
      base = "https://s3.us-west-2.amazonaws.com/secure.notion-static.com/s3.us-west/a" := by
    rw [← String.toList_inj, hbase.eq_takeWhile]
    decide
  obtain ⟨hstays, hhost⟩ := hiff.mpr ⟨by decide, "s3.us-west-2.amazonaws.com".toList,
    "/secure.notion-static.com/s3.us-west/a".toList, ⟨by decide, by decide, .inr ⟨_, rfl⟩⟩,
    fun _ => ⟨[], "-2.amazonaws.com".toList, by decide⟩⟩
  exact ⟨hsecure, _, address, hbase, haddress, hstays, hhost⟩

/-- An upload with an object that is named like an old store. -/
def dottedObject : String :=
  "https://s3-ca-central-1.amazonaws.com/secure.notion-static.com/s3.us-west/a.png"

open Asset in
/-- The dotted name is respelled in the name of an object too, so that the address leads to another
object. -/
theorem dottedObject_is_renamed :
    isSecure dottedObject = true ∧ IsBaseOf dottedObject.toList dottedObject.toList ∧
      ∃ address, proxied? (imageUrl "b1" dottedObject none) = some address ∧
        ¬ (isSecure address = true ∧
          RespelledInHost dottedObject.toList address.toList) := by
  have hsecure : isSecure dottedObject = true := by
    decide
  have hbase : IsBaseOf dottedObject.toList dottedObject.toList := ⟨by decide, .inl rfl⟩
  refine ⟨hsecure, hbase, _, proxied?_imageUrl hsecure "b1" none, ?_⟩
  rw [String.toList_ofList, respelledInHost_iff (firstReplaced_clean hbase)]
  rintro ⟨-, host, path, hsplit, hoccurs⟩
  have hhost : host = "s3-ca-central-1.amazonaws.com".toList := by
    rw [hsplit.host_eq]
    decide
  have hname : dottedStore <:+: host := hoccurs
    ⟨"https://s3-ca-central-1.amazonaws.com/secure.notion-static.com/".toList, "/a.png".toList,
      by decide⟩
  have hletter : 'u' ∈ host := hname.subset (by decide)
  rw [hhost] at hletter
  exact absurd hletter (by decide)

end Folio
