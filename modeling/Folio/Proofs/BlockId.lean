import Folio.RecordMap

/-!
# Folio.Proofs.BlockId

The two spellings of ids. Every text has a dashed and an undashed spelling. The dashed one is another
text only where 32 ASCII characters are left without dashes.

* `BlockId.undashed_dashed`, `BlockId.undashed_congr`: the dashed spelling has the characters of the
  undashed one.
* `BlockId.Grouped`: a text in groups of 8, 4, 4, 4 and 12 characters.
* `BlockId.grouped_group`, `BlockId.Grouped.isValid_cut`: the groups of ASCII characters, and that no
  character lies across a cut between them.
* `BlockId.dashed_ne_iff`: the texts that have another spelling.
-/

namespace Folio
namespace BlockId

/-! ## Ids without dashes -/

theorem toList_undashed (s : String) : (undashed s).toList = s.toList.filter (· != '-') :=
  String.toList_ofList

theorem mem_undashed {s : String} {c : Char} :
    c ∈ (undashed s).toList ↔ c ∈ s.toList ∧ c ≠ '-' := by
  simp [toList_undashed]

/-- Dashes between the groups are taken out again. -/
theorem filter_group {cs : List Char} (h : '-' ∉ cs) : (group cs).filter (· != '-') = cs := by
  have hplain {ds : List Char} (hds : ds ⊆ cs) : ds.filter (· != '-') = ds := by
    refine List.filter_eq_self.mpr fun c hc => bne_iff_ne.mpr ?_
    rintro rfl
    exact h (hds hc)
  have hpart (m k : Nat) : ((cs.drop m).take k).filter (· != '-') = (cs.drop m).take k :=
    hplain fun c hc => List.mem_of_mem_drop (List.mem_of_mem_take hc)
  have hfirst : (cs.take 8).filter (· != '-') = cs.take 8 :=
    hplain fun c hc => List.mem_of_mem_take hc
  have hlast : (cs.drop 20).filter (· != '-') = cs.drop 20 :=
    hplain fun c hc => List.mem_of_mem_drop hc
  have hdash (ds : List Char) : ('-' :: ds).filter (· != '-') = ds.filter (· != '-') :=
    List.filter_cons_of_neg (by decide)
  have hcut (m k : Nat) : (cs.drop m).take k ++ cs.drop (m + k) = cs.drop m := by
    rw [← List.drop_drop, List.take_append_drop]
  simp only [group, List.filter_append, hdash, hpart, hfirst, hlast]
  rw [hcut 16 4, hcut 12 4, hcut 8 4, List.take_append_drop]

theorem dash_notMem_undashed (s : String) : '-' ∉ (undashed s).toList :=
  fun hmem => (mem_undashed.mp hmem).2 rfl

theorem undashed_dashed (s : String) : undashed (dashed s) = undashed s := by
  unfold dashed
  split
  · rfl
  · split
    · rw [undashed, String.toList_ofList, filter_group (dash_notMem_undashed s), String.ofList_toList]
    · rfl

theorem undashed_congr {s t : String} (h : dashed s = dashed t) : undashed s = undashed t := by
  rw [← undashed_dashed s, h, undashed_dashed]

/-! ## Groups -/

theorem exists_append_of_length {n k : Nat} {cs : List Char} (h : cs.length = n + k) :
    ∃ as bs, cs = as ++ bs ∧ as.length = n ∧ bs.length = k :=
  ⟨cs.take n, cs.drop n, (List.take_append_drop n cs).symm, by simp [h], by simp [h]⟩

theorem group_append {as bs cs ds es : List Char} (ha : as.length = 8) (hb : bs.length = 4)
    (hc : cs.length = 4) (hd : ds.length = 4) :
    group (as ++ bs ++ cs ++ ds ++ es) =
      as ++ '-' :: (bs ++ '-' :: (cs ++ '-' :: (ds ++ '-' :: es))) := by
  simp (disch := omega) [group, List.drop_append, List.drop_of_length_le, ha, hb, hc]

theorem exists_groups {digits : List Char} (h : digits.length = 32) :
    ∃ as bs cs ds es : List Char, digits = as ++ bs ++ cs ++ ds ++ es ∧
      as.length = 8 ∧ bs.length = 4 ∧ cs.length = 4 ∧ ds.length = 4 ∧ es.length = 12 := by
  obtain ⟨as, _, rfl, ha, h⟩ := exists_append_of_length (n := 8) (k := 24) h
  obtain ⟨bs, _, rfl, hb, h⟩ := exists_append_of_length (n := 4) (k := 20) h
  obtain ⟨cs, _, rfl, hc, h⟩ := exists_append_of_length (n := 4) (k := 16) h
  obtain ⟨ds, es, rfl, hd, he⟩ := exists_append_of_length (n := 4) (k := 12) h
  exact ⟨as, bs, cs, ds, es, by simp only [List.append_assoc], ha, hb, hc, hd, he⟩

/-- The second text is the first one in groups of 8, 4, 4, 4 and 12 characters, joined by dashes.
Each group has as many bytes as characters. -/
def Grouped (bare s : String) : Prop :=
  ∃ groups : List String, String.join groups = bare ∧ "-".intercalate groups = s ∧
    groups.map String.length = [8, 4, 4, 4, 12] ∧
    groups.map String.utf8ByteSize = [8, 4, 4, 4, 12]

theorem utf8ByteSize_ofList_ascii {cs : List Char} (h : ∀ c ∈ cs, c.toNat < 128) :
    (String.ofList cs).utf8ByteSize = cs.length := by
  induction cs with
  | nil => rfl
  | cons c rest ih =>
    obtain ⟨hc, hrest⟩ := List.forall_mem_cons.mp h
    have hsize : c.utf8Size = 1 :=
      Char.utf8Size_eq_one_iff.mpr (UInt32.le_iff_toNat_le.mpr (Nat.le_of_lt_succ hc))
    have hfirst : String.ofList (c :: rest) = String.singleton c ++ String.ofList rest := by
      rw [String.singleton_eq_ofList, ← String.ofList_append, List.singleton_append]
    rw [hfirst, String.utf8ByteSize_append, ih hrest, String.utf8ByteSize_singleton, hsize,
      List.length_cons, Nat.add_comm]

theorem grouped_group {cs : List Char} (hlength : cs.length = 32)
    (hascii : ∀ c ∈ cs, c.toNat < 128) : Grouped (String.ofList cs) (String.ofList (group cs)) := by
  obtain ⟨as, bs, cs, ds, es, rfl, ha, hb, hc, hd, he⟩ := exists_groups hlength
  simp only [List.forall_mem_append] at hascii
  obtain ⟨⟨⟨⟨has, hbs⟩, hcs⟩, hds⟩, hes⟩ := hascii
  refine ⟨[as, bs, cs, ds, es].map String.ofList, ?_, ?_, ?_, ?_⟩
  · simp only [List.map_cons, List.map_nil, String.join_cons, String.join_nil, String.append_empty,
      String.ofList_append, String.append_assoc]
  · rw [group_append ha hb hc hd]
    refine String.toList_inj.mp ?_
    simp
  · simp [ha, hb, hc, hd, he]
  · simp only [List.map_cons, List.map_nil, utf8ByteSize_ofList_ascii has,
      utf8ByteSize_ofList_ascii hbs, utf8ByteSize_ofList_ascii hcs, utf8ByteSize_ofList_ascii hds,
      utf8ByteSize_ofList_ascii hes, ha, hb, hc, hd, he]

theorem utf8ByteSize_join (ss : List String) :
    (String.join ss).utf8ByteSize = (ss.map String.utf8ByteSize).foldr (· + ·) 0 := by
  induction ss with
  | nil => rfl
  | cons s rest ih =>
    rw [String.join_cons, String.utf8ByteSize_append, ih, List.map_cons, List.foldr_cons]

/-- The text can be cut between two groups: the number of bytes in front of the cut is in bounds, and
no character lies across. -/
theorem Grouped.isValid_cut {bare s : String} (h : Grouped bare s) {n : Nat}
    (hn : n ∈ [8, 12, 16, 20]) : String.Pos.Raw.IsValid bare ⟨n⟩ := by
  obtain ⟨groups, rfl, -, -, hsizes⟩ := h
  have hcut (k : Nat) :
      String.Pos.Raw.IsValid (String.join groups)
        ⟨([8, 4, 4, 4, 12].take k).foldr (· + ·) 0⟩ := by
    rw [String.Pos.Raw.isValid_iff_exists_append]
    refine ⟨String.join (groups.take k), String.join (groups.drop k), ?_, ?_⟩
    · rw [← String.join_append, List.take_append_drop]
    · rw [← hsizes, ← List.map_take, ← utf8ByteSize_join]
      rfl
  simp only [List.mem_cons, List.not_mem_nil, or_false] at hn
  rcases hn with rfl | rfl | rfl | rfl
  · exact hcut 1
  · exact hcut 2
  · exact hcut 3
  · exact hcut 4

/-! ## Texts with another spelling -/

theorem isBare_iff {cs : List Char} :
    isBare cs = true ↔ cs.length = 32 ∧ ∀ c ∈ cs, c.toNat < 128 := by
  simp [isBare]

theorem dashed_of_isBare {s : String} (hdashed : isDashed s = false)
    (hbare : isBare (undashed s).toList = true) :
    dashed s = String.ofList (group (undashed s).toList) := by
  rw [dashed, hdashed, if_neg Bool.false_ne_true, if_pos hbare]

/-- A text has another spelling with dashes just if it does not pass for a dashed one and 32 ASCII
characters are left without its dashes. -/
theorem dashed_ne_iff {s : String} :
    dashed s ≠ s ↔ isDashed s = false ∧ isBare (undashed s).toList = true := by
  constructor
  · intro hne
    unfold dashed at hne
    split at hne
    · exact absurd rfl hne
    · rename_i hdashed
      split at hne
      · rename_i hbare
        exact ⟨Bool.eq_false_iff.mpr hdashed, hbare⟩
      · exact absurd rfl hne
  · rintro ⟨hdashed, hbare⟩ heq
    have hgroups := isDashed_group (isBare_iff.mp hbare).1
    rw [← dashed_of_isBare hdashed hbare, heq, hdashed] at hgroups
    cases hgroups

/-- The other spelling is the characters without dashes, in groups. -/
theorem grouped_dashed {s : String} (h : dashed s ≠ s) : Grouped (undashed s) (dashed s) := by
  obtain ⟨hdashed, hbare⟩ := dashed_ne_iff.mp h
  obtain ⟨hlength, hascii⟩ := isBare_iff.mp hbare
  have hgroups := grouped_group hlength hascii
  rwa [String.ofList_toList, ← dashed_of_isBare hdashed hbare] at hgroups

end BlockId
end Folio
