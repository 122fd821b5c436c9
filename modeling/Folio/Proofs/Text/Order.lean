/-!
# Folio.Proofs.Text.Order

The order of texts is the order of their bytes in UTF-8. In both, the first place where two texts
differ decides.

* `Ascending`: numbers written as bytes in such a way that the bytes of a smaller number come first,
  whatever follows.
* `utf8EncodeChar_lt`: characters are written so.
* `lt_iff_bytes_lt`: texts compare as their bytes do.
* `pairwise_mergeSort`, `eq_of_pairwise_lt`: distinct texts are sorted in one way.
-/

namespace Folio
namespace Text

def bytes (s : String) : List UInt8 :=
  s.toUTF8.data.toList

/-- Below a bound, the bytes of a smaller number come first, whatever stands behind. -/
def Ascending (bound : Nat) (write : Nat → List UInt8) : Prop :=
  ∀ v w, v < w → w < bound → ∀ xs ys, write v ++ xs < write w ++ ys

theorem ofNat_lt_ofNat {a b : Nat} (hab : a < b) (hb : b < 256) :
    UInt8.ofNat a < UInt8.ofNat b := by
  rw [UInt8.lt_iff_toNat_lt, UInt8.toNat_ofNat', UInt8.toNat_ofNat']
  omega

/-- A leading byte. -/
theorem ascending_lead (bound mark : Nat) (h : bound + mark ≤ 256) :
    Ascending bound fun n => [UInt8.ofNat (n % bound + mark)] := by
  intro v w hvw hw xs ys
  have hv : v % bound = v := Nat.mod_eq_of_lt (Nat.lt_trans hvw hw)
  have hw' : w % bound = w := Nat.mod_eq_of_lt hw
  simp only [hv, hw', List.cons_append, List.cons_lt_cons_iff]
  exact .inl (ofNat_lt_ofNat (Nat.add_lt_add_right hvw mark) (by omega))

/-- One more byte, for the last six bits. -/
theorem Ascending.trail {bound : Nat} {write : Nat → List UInt8} (h : Ascending bound write) :
    Ascending (64 * bound) fun n => write (n / 64) ++ [UInt8.ofNat (n % 64 + 128)] := by
  intro v w hvw hw xs ys
  simp only [List.append_assoc]
  rcases Nat.lt_or_eq_of_le (Nat.div_le_div_right (c := 64) (Nat.le_of_lt hvw)) with hfront | hfront
  · exact h _ _ hfront (by omega) _ _
  · rw [hfront]
    refine List.append_left_lt ?_
    simp only [List.cons_append, List.cons_lt_cons_iff]
    exact .inl (ofNat_lt_ofNat (by omega) (by omega))

theorem cons_lt_cons {a b : Nat} (hab : a < b) (hb : b < 256) (xs ys : List UInt8) :
    UInt8.ofNat a :: xs < UInt8.ofNat b :: ys :=
  List.cons_lt_cons_iff.mpr (.inl (ofNat_lt_ofNat hab hb))

/-- A smaller character is written by bytes that come first. -/
theorem utf8EncodeChar_lt {c d : Char} (h : c < d) (xs ys : List UInt8) :
    String.utf8EncodeChar c ++ xs < String.utf8EncodeChar d ++ ys := by
  have hlt : c.val.toNat < d.val.toNat := h
  have hd : d.val.toNat < 0x110000 := by
    have hvalid := d.valid
    unfold UInt32.isValidChar Nat.isValidChar at hvalid
    omega
  unfold String.utf8EncodeChar
  generalize c.val.toNat = v at hlt ⊢
  generalize d.val.toNat = w at hlt hd ⊢
  have two := (ascending_lead 32 192 (by omega)).trail v w hlt
  have three := (ascending_lead 16 224 (by omega)).trail.trail v w hlt
  have four := (ascending_lead 8 240 (by omega)).trail.trail.trail v w hlt
  simp only [Nat.div_div_eq_div_mul, List.cons_append, List.nil_append] at two three four
  simp only
  -- of two characters of one length the bytes go one by one, else the first bytes differ
  split
  · split
    · exact cons_lt_cons hlt (by omega) _ _
    split
    · exact cons_lt_cons (by omega) (by omega) _ _
    split
    · exact cons_lt_cons (by omega) (by omega) _ _
    · exact cons_lt_cons (by omega) (by omega) _ _
  split
  · rw [if_neg (by omega)]
    split
    · exact two (by omega) xs ys
    split
    · exact cons_lt_cons (by omega) (by omega) _ _
    · exact cons_lt_cons (by omega) (by omega) _ _
  split
  · rw [if_neg (by omega), if_neg (by omega)]
    split
    · exact three (by omega) xs ys
    · exact cons_lt_cons (by omega) (by omega) _ _
  · rw [if_neg (by omega), if_neg (by omega), if_neg (by omega)]
    exact four (by omega) xs ys

theorem bytes_eq (s : String) : bytes s = s.toList.flatMap String.utf8EncodeChar := by
  rw [bytes, String.toUTF8_eq_toByteArray, ← String.ofList_toList (s := s),
    String.toByteArray_ofList, String.toList_ofList]
  exact List.toList_data_toByteArray

theorem flatMap_utf8EncodeChar_lt {cs ds : List Char} (h : cs < ds) :
    cs.flatMap String.utf8EncodeChar < ds.flatMap String.utf8EncodeChar := by
  induction cs generalizing ds with
  | nil =>
    cases ds with
    | nil => exact absurd h (List.not_lt_nil [])
    | cons d ds =>
      obtain ⟨b, bs, hb⟩ := List.exists_cons_of_ne_nil (String.utf8EncodeChar_ne_nil (c := d))
      rw [List.flatMap_cons, hb]
      exact List.nil_lt_cons b _
  | cons c cs ih =>
    cases ds with
    | nil => exact absurd h (List.not_lt_nil _)
    | cons d ds =>
      rw [List.flatMap_cons, List.flatMap_cons]
      rcases List.cons_lt_cons_iff.mp h with hlt | ⟨rfl, hrest⟩
      · exact utf8EncodeChar_lt hlt _ _
      · exact List.append_left_lt (ih hrest)

/-- Texts are in the order of their bytes. -/
theorem lt_iff_bytes_lt {s t : String} : s < t ↔ bytes s < bytes t := by
  have hbytes {s t : String} (h : s < t) : bytes s < bytes t := by
    rw [bytes_eq, bytes_eq]
    exact flatMap_utf8EncodeChar_lt (String.lt_iff.mp h)
  refine ⟨hbytes, fun h => ?_⟩
  by_cases hlt : s < t
  · exact hlt
  have hle : t ≤ s := String.not_lt.mp hlt
  by_cases hst : s ≤ t
  · obtain rfl := String.le_antisymm hst hle
    exact absurd h (List.lt_irrefl _)
  · exact absurd (hbytes (String.not_le.mp hst)) (List.lt_asymm h)

/-! ## Sorted texts -/

theorem pairwise_mergeSort {l : List String} (h : l.Nodup) :
    (l.mergeSort (· ≤ ·)).Pairwise (· < ·) := by
  have hsorted : (l.mergeSort (· ≤ ·)).Pairwise (fun s t => decide (s ≤ t) = true) := by
    refine List.pairwise_mergeSort (fun s t u hst htu => ?_) (fun s t => ?_) l
    · exact decide_eq_true (String.le_trans (of_decide_eq_true hst) (of_decide_eq_true htu))
    · simpa using String.le_total s t
  have hnodup : (l.mergeSort (· ≤ ·)).Nodup := (List.mergeSort_perm l _).nodup_iff.mpr h
  refine (hsorted.and hnodup).imp fun {s t} hst => ?_
  exact String.not_le.mp fun hts =>
    hst.2 (String.le_antisymm (of_decide_eq_true hst.1) hts)

theorem eq_of_pairwise_lt {l l' : List String} (h : l.Pairwise (· < ·)) (h' : l'.Pairwise (· < ·))
    (hmem : ∀ s, s ∈ l ↔ s ∈ l') : l = l' := by
  have hperm : l.Perm l' :=
    (List.perm_ext_iff_of_nodup (h.imp String.ne_of_lt) (h'.imp String.ne_of_lt)).mpr hmem
  exact hperm.eq_of_pairwise (fun s t _ _ hst hts => absurd hts (String.lt_asymm hst)) h h'

end Text
end Folio
