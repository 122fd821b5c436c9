import Folio.Proofs.Url.Percent
import Folio.Url.Asset

/-!
# Folio.Proofs.Url.Signed

Public addresses of uploads and of paths of the host. An upload is read back from its public
address, and a public address is left as it is when it is made public again.

* `Asset.Cleaned`: an address without its query, the first dotted name of a store respelled.
* `Asset.segment?`, `Asset.proxied?`: the reader of a signed address.
* `Asset.proxied?_imageUrl`: the reader finds the cleaned address of the upload.
* `Asset.Settled`: an address that stays as it is.
* `addresses_are_encoded_and_settled`: all of it, for every text, block and width.
-/

namespace Folio
namespace Asset

/-! ## Cleaned addresses -/

/-- `base` is the part of an address before its first question mark. -/
def IsBaseOf (base address : List Char) : Prop :=
  '?' ∉ base ∧ (address = base ∨ ∃ query, address = base ++ '?' :: query)

/-- The second text is the first one with the first occurrence of `old` replaced by `new`. -/
inductive FirstReplaced (old new : List Char) : List Char → List Char → Prop where
  | absent {s : List Char} : ¬ old <:+: s → FirstReplaced old new s s
  | found {front back : List Char} :
      (∀ front' back', front ++ old ++ back = front' ++ old ++ back' →
        front.length ≤ front'.length) →
      FirstReplaced old new (front ++ old ++ back) (front ++ new ++ back)

/-- The address of an upload without its query, the first dotted name of a regional store in it
written with a dash. -/
def Cleaned (address cleaned : List Char) : Prop :=
  ∃ base, IsBaseOf base address ∧
    FirstReplaced "s3.us-west".toList "s3-us-west".toList base cleaned

theorem takeWhile_ne_append {sep : Char} {front : List Char} (h : sep ∉ front)
    (rest : List Char) :
    (front ++ rest).takeWhile (· != sep) = front ++ rest.takeWhile (· != sep) := by
  refine List.takeWhile_append_of_pos fun c hc => ?_
  rw [bne_iff_ne]
  rintro rfl
  exact h hc

theorem isBaseOf_takeWhile (s : List Char) : IsBaseOf (s.takeWhile (· != '?')) s := by
  have hcut : s.takeWhile (· != '?') ++ s.dropWhile (· != '?') = s :=
    List.takeWhile_append_dropWhile
  constructor
  · intro hmem
    simpa using List.all_eq_true.mp List.all_takeWhile '?' hmem
  · cases hrest : s.dropWhile (· != '?') with
    | nil =>
      rw [hrest, List.append_nil] at hcut
      exact .inl hcut.symm
    | cons c query =>
      have hhead := List.head?_dropWhile_not (· != '?') s
      rw [hrest] at hcut hhead
      obtain rfl : c = '?' := by simpa using hhead
      exact .inr ⟨query, hcut.symm⟩

theorem IsBaseOf.eq_takeWhile {base address : List Char} (h : IsBaseOf base address) :
    base = address.takeWhile (· != '?') := by
  obtain rfl | ⟨query, rfl⟩ := h.2
  · simpa using (takeWhile_ne_append h.1 []).symm
  · rw [takeWhile_ne_append h.1]
    simp

theorem firstReplaced_replaceFirst {old : List Char} (hold : old ≠ []) (new s : List Char) :
    FirstReplaced old new s (replaceFirst old new s) := by
  induction s with
  | nil => exact .absent fun h => hold (List.eq_nil_of_infix_nil h)
  | cons c rest ih =>
    rw [replaceFirst]
    split
    · rename_i hprefix
      obtain ⟨back, hback⟩ := List.isPrefixOf_iff_prefix.mp hprefix
      have hfound : FirstReplaced old new ([] ++ old ++ back) ([] ++ new ++ back) :=
        .found fun _ _ _ => Nat.zero_le _
      rw [← hback, List.drop_left]
      exact hfound
    · rename_i hprefix
      have hstart : ¬ old <+: c :: rest := fun h => hprefix (List.isPrefixOf_iff_prefix.mpr h)
      generalize replaceFirst old new rest = t at ih
      cases ih with
      | absent habsent =>
        refine .absent fun h => ?_
        rcases List.infix_cons_iff.mp h with h | h
        · exact hstart h
        · exact habsent h
      | @found front back hfirst =>
        -- an earlier occurrence would be at the very start, where there is none
        have hearliest : ∀ front' back', c :: front ++ old ++ back = front' ++ old ++ back' →
            (c :: front).length ≤ front'.length := by
          intro front' back' heq
          cases front' with
          | nil => exact absurd ⟨back', heq.symm⟩ hstart
          | cons d front' =>
            have htail := (List.cons.inj heq).2
            exact Nat.succ_le_succ (hfirst front' back' htail)
        exact .found hearliest

theorem cleaned_clean (u : String) : Cleaned u.toList (clean u) :=
  ⟨_, isBaseOf_takeWhile _, firstReplaced_replaceFirst (by decide) _ _⟩

/-! ## Classes of addresses -/

/-- The place of uploads behind the name of their store. -/
def storagePath : List Char := ".amazonaws.com/secure.notion-static.com/".toList

theorem after?_eq_some_iff {start s rest : List Char} :
    after? start s = some rest ↔ s = start ++ rest := by
  unfold after?
  split
  · rename_i hprefix
    obtain ⟨back, rfl⟩ := List.isPrefixOf_iff_prefix.mp hprefix
    simp
  · rename_i hprefix
    refine ⟨nofun, ?_⟩
    rintro rfl
    exact absurd (List.isPrefixOf_iff_prefix.mpr (List.prefix_append _ _)) hprefix

theorem isSecure_iff {u : String} :
    isSecure u = true ↔
      ∃ rest, u.toList = "https://s3".toList ++ rest ∧ followsGap storagePath rest = true := by
  unfold isSecure
  split
  · rename_i rest hrest
    rw [after?_eq_some_iff] at hrest
    rw [hrest]
    constructor
    · exact fun h => ⟨rest, rfl, h⟩
    · rintro ⟨rest', heq, h⟩
      rw [List.append_cancel_left heq]
      exact h
  · rename_i hnone
    refine ⟨nofun, ?_⟩
    rintro ⟨rest, heq, -⟩
    rw [after?_eq_some_iff.mpr heq] at hnone
    cases hnone

theorem isRelative_of_isSecure {u : String} (h : isSecure u = true) : isRelative u = false := by
  obtain ⟨rest, hrest, -⟩ := isSecure_iff.mp h
  rw [isRelative, hrest]
  rfl

/-- The addresses of the host are of neither class. -/
theorem isSecure_host (s : String) : isSecure ("https://www.notion.so" ++ s) = false := by
  rw [isSecure, String.toList_append]
  rfl

theorem isRelative_host (s : String) : isRelative ("https://www.notion.so" ++ s) = false := by
  rw [isRelative, String.toList_append]
  rfl

/-! ## Public addresses -/

variable {u : String}

theorem imageUrl_of_isSecure (h : isSecure u = true) (b : String) (w : Option Float) :
    imageUrl b u w =
      "https://www.notion.so/signed/" ++ String.ofList (Percent.encode (clean u)) ++ "?" ++
        signedQuery b w := by
  rw [imageUrl, if_pos h]
  rfl

theorem imageUrl_of_isRelative (hsecure : isSecure u = false) (h : isRelative u = true)
    (b : String) (w : Option Float) : imageUrl b u w = "https://www.notion.so" ++ u := by
  rw [imageUrl, hsecure, if_neg Bool.false_ne_true, if_pos h]
  rfl

theorem imageUrl_of_other (hsecure : isSecure u = false) (h : isRelative u = false) (b : String)
    (w : Option Float) : imageUrl b u w = u := by
  rw [imageUrl, hsecure, if_neg Bool.false_ne_true, h, if_neg Bool.false_ne_true]

/-- No block and no width makes another address of it, neither that of an image nor that of a
file. -/
def Settled (address : String) : Prop :=
  ∀ b w, imageUrl b address w = address ∧ fileUrl b address = address

theorem settled_of_other (hsecure : isSecure u = false) (h : isRelative u = false) : Settled u :=
  fun b w => ⟨imageUrl_of_other hsecure h b w, imageUrl_of_other hsecure h b none⟩

theorem settled_host (s : String) : Settled ("https://www.notion.so" ++ s) :=
  settled_of_other (isSecure_host s) (isRelative_host s)

theorem settled_imageUrl (b u : String) (w : Option Float) : Settled (imageUrl b u w) := by
  cases hsecure : isSecure u with
  | true =>
    have hroute : "https://www.notion.so/signed/" = "https://www.notion.so" ++ "/signed/" := rfl
    rw [imageUrl_of_isSecure hsecure, hroute, String.append_assoc, String.append_assoc,
      String.append_assoc]
    exact settled_host _
  | false =>
    cases hrelative : isRelative u with
    | true =>
      rw [imageUrl_of_isRelative hsecure hrelative]
      exact settled_host u
    | false =>
      rw [imageUrl_of_other hsecure hrelative]
      exact settled_of_other hsecure hrelative

/-- The parameters are those of the block, behind the width if there is one to be passed on. -/
theorem signedQuery_cases (b : String) (w : Option Float) :
    (∃ x, w = some x ∧ usableWidth x = true ∧
        signedQuery b w = "width=" ++ FloatStyle.plain.write x ++ "&" ++ "table=block&id=" ++ b) ∨
      (∀ x, w = some x → usableWidth x = false) ∧ signedQuery b w = "table=block&id=" ++ b := by
  cases w with
  | none => exact .inr ⟨nofun, rfl⟩
  | some x =>
    cases husable : usableWidth x with
    | true =>
      refine .inl ⟨x, rfl, husable, ?_⟩
      rw [signedQuery, Option.filter_some, if_pos husable]
      simp only [String.append_assoc]
    | false =>
      refine .inr ⟨?_, ?_⟩
      · rintro _ ⟨⟩
        exact husable
      · rw [signedQuery, Option.filter_some, husable, if_neg Bool.false_ne_true]

/-! ## Signed addresses read back -/

/-- What stands between the signed route and the parameters. -/
def segment? (address : String) : Option (List Char) := do
  let rest ← after? "https://www.notion.so/signed/".toList address.toList
  if '?' ∈ rest then some (rest.takeWhile (· != '?')) else none

/-- The address that a signed address stands for. -/
def proxied? (address : String) : Option String :=
  (segment? address).bind Percent.decode?

theorem segment?_signed {segment : List Char} (h : '?' ∉ segment) (query : String) :
    segment? ("https://www.notion.so/signed/" ++ String.ofList segment ++ "?" ++ query) =
      some segment := by
  have hafter : after? "https://www.notion.so/signed/".toList
      ("https://www.notion.so/signed/" ++ String.ofList segment ++ "?" ++ query).toList =
        some (segment ++ '?' :: query.toList) := by
    rw [after?_eq_some_iff]
    simp
  rw [segment?, hafter, Option.bind_eq_bind, Option.bind_some, if_pos (by simp),
    takeWhile_ne_append h]
  simp

theorem question_notMem_encode (s : List Char) : '?' ∉ Percent.encode s :=
  fun h => absurd (Percent.plain_of_mem_encode h) (by decide)

theorem proxied?_imageUrl (h : isSecure u = true) (b : String) (w : Option Float) :
    proxied? (imageUrl b u w) = some (String.ofList (clean u)) := by
  rw [imageUrl_of_isSecure h, proxied?, segment?_signed (question_notMem_encode _),
    Option.bind_some, Percent.decode?_encode]

end Asset

open Asset in
/-- The public addresses of a text. If it is the address of an upload, they lead along the signed
route to its cleaned form, written as a component of plain characters: it is read back, so other
cleaned forms are written in another way. The parameters end with the block, and before it there is
at most the width of an image. No path of the host is an upload; such a path gets the host in front
and everything else stays as it is. A public address is its own public address, whatever it is used
for. -/
theorem addresses_are_encoded_and_settled (b u : String) (w : Option Float) :
    (isSecure u = true →
        ∃ cleaned query, Cleaned u.toList cleaned ∧
          imageUrl b u w =
            "https://www.notion.so/signed/" ++ String.ofList (Percent.encode cleaned) ++ "?" ++
              query ∧
          fileUrl b u =
            "https://www.notion.so/signed/" ++ String.ofList (Percent.encode cleaned) ++ "?" ++
              ("table=block&id=" ++ b) ∧
          (∀ c ∈ Percent.encode cleaned, c.isAlphanum = true ∨ c ∈ "-_.!~*'()%".toList) ∧
          Percent.decode? (Percent.encode cleaned) = some (String.ofList cleaned) ∧
          (∀ other, other ≠ cleaned → Percent.encode other ≠ Percent.encode cleaned) ∧
          ((∃ x, w = some x ∧ usableWidth x = true ∧
              query = "width=" ++ FloatStyle.plain.write x ++ "&" ++ "table=block&id=" ++ b) ∨
            (∀ x, w = some x → usableWidth x = false) ∧ query = "table=block&id=" ++ b)) ∧
      ¬ (isSecure u = true ∧ isRelative u = true) ∧
      (isSecure u = false →
        (isRelative u = true →
          imageUrl b u w = "https://www.notion.so" ++ u ∧
            fileUrl b u = "https://www.notion.so" ++ u) ∧
          (isRelative u = false → imageUrl b u w = u ∧ fileUrl b u = u)) ∧
      Settled (imageUrl b u w) ∧ Settled (fileUrl b u) := by
  refine ⟨fun h => ?_, ?_, fun h => ⟨fun hrelative => ?_, fun hother => ?_⟩,
    settled_imageUrl b u w, settled_imageUrl b u none⟩
  · exact ⟨clean u, signedQuery b w, cleaned_clean u, imageUrl_of_isSecure h b w,
      imageUrl_of_isSecure h b none, fun c => Percent.plain_of_mem_encode,
      Percent.decode?_encode _, fun other hne => Percent.encode_injective.ne hne,
      signedQuery_cases b w⟩
  · rintro ⟨hsecure, hrelative⟩
    rw [isRelative_of_isSecure hsecure] at hrelative
    cases hrelative
  · exact ⟨imageUrl_of_isRelative h hrelative b w, imageUrl_of_isRelative h hrelative b none⟩
  · exact ⟨imageUrl_of_other h hother b w, imageUrl_of_other h hother b none⟩

open Asset in
theorem addresses_of_each_class_are_settled :
    let upload := "https://s3.us-west-2.amazonaws.com/secure.notion-static.com/ü 1?sig=2"
    (isSecure upload = true ∧
      (∃ cleaned query, Cleaned upload.toList cleaned ∧
        imageUrl "b1" upload none =
          "https://www.notion.so/signed/" ++ String.ofList (Percent.encode cleaned) ++ "?" ++
            query ∧
        Percent.decode? (Percent.encode cleaned) = some (String.ofList cleaned)) ∧
      Settled (imageUrl "b1" upload none)) ∧
    (isSecure "/images/a" = false ∧ isRelative "/images/a" = true ∧
      imageUrl "b1" "/images/a" none = "https://www.notion.so" ++ "/images/a") ∧
    isSecure "🚀" = false ∧ isRelative "🚀" = false ∧ imageUrl "b1" "🚀" none = "🚀" := by
  intro upload
  have hsecure : isSecure upload = true := by
    decide
  obtain ⟨hsigned, -, -, hsettled, -⟩ := addresses_are_encoded_and_settled "b1" upload none
  obtain ⟨cleaned, query, hcleaned, hroute, -, -, hdecoded, -, -⟩ := hsigned hsecure
  obtain ⟨-, -, hpath, -, -⟩ := addresses_are_encoded_and_settled "b1" "/images/a" none
  obtain ⟨-, -, hother, -, -⟩ := addresses_are_encoded_and_settled "b1" "🚀" none
  refine ⟨⟨hsecure, ⟨cleaned, query, hcleaned, hroute, hdecoded⟩, hsettled⟩, ?_, ?_⟩
  · exact ⟨rfl, rfl, ((hpath rfl).1 rfl).1⟩
  · exact ⟨rfl, rfl, ((hother rfl).2 rfl).1⟩

end Folio
