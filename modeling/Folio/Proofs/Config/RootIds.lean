import Folio.Proofs.Config.Merging
import Folio.Proofs.RecordMap.Lookup

/-!
# Folio.Proofs.Config.RootIds

The spellings of ids, in general and of the ids that a configuration accepts as a root. Thirty-two
hexadecimal digits have exactly two accepted spellings, and each is made from the other.

* `Config.spellings_of_digits`: the spellings of an accepted id.
* `spellings_of_ids`: the laws of spellings, for every text and for accepted ids.
-/

namespace Folio

namespace Config

theorem plain_of_isHex {c : Char} (h : isHex c = true) : c ≠ '-' ∧ c.toNat < 128 := by
  constructor
  · rintro rfl
    exact absurd h (by decide)
  · have hrange : c ≤ '9' ∨ c ≤ 'f' ∨ c ≤ 'F' := by
      by_contra hnone
      simp only [not_or] at hnone
      simp [isHex, Text.hexDigit?, hnone] at h
    have hascii {d : Char} (hle : c ≤ d) (hd : d.toNat < 128) : c.toNat < 128 :=
      Nat.lt_of_le_of_lt (UInt32.le_iff_toNat_le.mp hle) hd
    rcases hrange with hle | hle | hle
    · exact hascii hle (by decide)
    · exact hascii hle (by decide)
    · exact hascii hle (by decide)

/-- An accepted id comes down to its digits, and is grouped in one way. -/
theorem spellings_of_digits {id : String} {digits : List Char} (hlength : digits.length = 32)
    (hdigits : ∀ c ∈ digits, isHex c = true)
    (hid : id.toList = digits ∨ id.toList = BlockId.group digits) :
    BlockId.undashed id = String.ofList digits ∧
      BlockId.dashed id = String.ofList (BlockId.group digits) := by
  have hfree : '-' ∉ digits := fun hmem => (plain_of_isHex (hdigits _ hmem)).1 rfl
  have hundashed : BlockId.undashed id = String.ofList digits := by
    rw [BlockId.undashed]
    rcases hid with hid | hid
    · rw [hid, List.filter_eq_self.mpr fun c hc => bne_iff_ne.mpr (plain_of_isHex (hdigits c hc)).1]
    · rw [hid, BlockId.filter_group hfree]
  refine ⟨hundashed, ?_⟩
  rcases hid with hid | hid
  · have hplain : BlockId.isDashed id = false := by
      simp [BlockId.isDashed, hid, hlength]
    have hbare : BlockId.isBare (BlockId.undashed id).toList = true := by
      rw [hundashed, String.toList_ofList, BlockId.isBare_iff]
      exact ⟨hlength, fun c hc => (plain_of_isHex (hdigits c hc)).2⟩
    rw [BlockId.dashed_of_isBare hplain hbare, hundashed, String.toList_ofList]
  · have hgroups : String.ofList (BlockId.group digits) = id := by
      rw [← hid, String.ofList_toList]
    rw [hgroups, BlockId.dashed, ← hgroups, if_pos (BlockId.isDashed_group hlength)]

end Config

open BlockId in
/-- The laws of spellings. Of every text the dashed spelling is settled, has the characters of the
undashed one, and decides on it and on the address. It differs from the text just if the text does not
pass for a dashed one and has 32 ASCII characters without dashes; these then stand in it in five
groups, cut between characters. An id that is accepted as a root is accepted in both spellings; each
is made from the other, and both find the same block. -/
theorem spellings_of_ids (s t : String) :
    dashed (dashed s) = dashed s ∧
      undashed (dashed s) = undashed s ∧
      (dashed s = dashed t → uri s = uri t ∧ undashed s = undashed t) ∧
      (dashed s ≠ s ↔ isDashed s = false ∧ (undashed s).toList.length = 32 ∧
        ∀ c ∈ (undashed s).toList, c.toNat < 128) ∧
      (dashed s ≠ s → isDashed (dashed s) = true ∧ Grouped (undashed s) (dashed s) ∧
        ∀ n ∈ [8, 12, 16, 20], String.Pos.Raw.IsValid (undashed s) ⟨n⟩) ∧
      (Config.isBlockId s = true →
        Grouped (undashed s) (dashed s) ∧
          Config.isBlockId (dashed s) = true ∧ Config.isBlockId (undashed s) = true ∧
          dashed (undashed s) = dashed s ∧
          ∀ m : RecordMap, m.get? (dashed s) = m.get? s ∧ m.get? (undashed s) = m.get? s) := by
  refine ⟨dashed_dashed s, undashed_dashed s, fun h => ?_, ?_, fun h => ?_, fun h => ?_⟩
  · have hundashed := undashed_congr h
    exact ⟨congrArg (host ++ "/" ++ ·) hundashed, hundashed⟩
  · rw [dashed_ne_iff, isBare_iff]
  · have hgrouped := grouped_dashed h
    refine ⟨?_, hgrouped, fun n hn => hgrouped.isValid_cut hn⟩
    obtain ⟨hplain, hbare⟩ := dashed_ne_iff.mp h
    rw [dashed_of_isBare hplain hbare]
    exact isDashed_group (isBare_iff.mp hbare).1
  · obtain ⟨digits, hlength, hdigits, hid⟩ := (Config.isBlockId_iff s).mp h
    obtain ⟨hundashed, hdashed⟩ := Config.spellings_of_digits hlength hdigits hid
    have hagain : dashed (undashed s) = dashed s := by
      have hbare : (undashed s).toList = digits := by rw [hundashed, String.toList_ofList]
      rw [(Config.spellings_of_digits hlength hdigits (.inl hbare)).2, hdashed]
    refine ⟨?_, ?_, ?_, hagain, fun m => ⟨m.get?_dashed s, m.get?_congr hagain⟩⟩
    · rw [hundashed, hdashed]
      exact grouped_group hlength fun c hc => (Config.plain_of_isHex (hdigits c hc)).2
    · rw [hdashed, Config.isBlockId_iff]
      exact ⟨digits, hlength, hdigits, .inr String.toList_ofList⟩
    · rw [hundashed, Config.isBlockId_iff]
      exact ⟨digits, hlength, hdigits, .inl String.toList_ofList⟩

theorem spellings_of_misplaced_dash :
    let misplaced := "0eeee000cccc-bbbbaaaa123450000000"
    let root := "0EEEE000-CCCC-BBBB-AAAA-123450000000"
    BlockId.dashed misplaced ≠ misplaced ∧
      BlockId.Grouped (BlockId.undashed misplaced) (BlockId.dashed misplaced) ∧
      BlockId.dashed misplaced = BlockId.dashed (BlockId.undashed misplaced) ∧
      BlockId.uri misplaced = BlockId.uri (BlockId.undashed misplaced) ∧
      Config.isBlockId root = true ∧ Config.isBlockId (BlockId.undashed root) = true ∧
      ((RecordMap.empty.insert { id := root, blockType := "page" }).get?
        (BlockId.undashed root)).isSome = true := by
  intro misplaced root
  have hne : BlockId.dashed misplaced ≠ misplaced := by
    decide +kernel
  have hroot : Config.isBlockId root = true := by
    decide +kernel
  have hsame : BlockId.dashed misplaced = BlockId.dashed (BlockId.undashed misplaced) := by
    decide +kernel
  obtain ⟨-, -, haddress, -, hgroups, -⟩ :=
    spellings_of_ids misplaced (BlockId.undashed misplaced)
  obtain ⟨-, -, -, -, -, haccepted⟩ := spellings_of_ids root root
  obtain ⟨-, -, hundashed, -, hfound⟩ := haccepted hroot
  refine ⟨hne, (hgroups hne).2.1, hsame, (haddress hsame).1, hroot, hundashed, ?_⟩
  rw [(hfound _).2, RecordMap.get?_insert_self rfl]
  rfl

end Folio
