import Folio.Text.Digit
import Folio.Url.Percent
import Mathlib.Logic.Function.Basic

/-!
# Folio.Proofs.Url.Percent

Components of addresses are read back. `%` and two hexadecimal digits are one byte, any other
character is the bytes of its UTF-8 form, and the bytes together are a text in UTF-8.

* `Percent.decodeBytes`, `Percent.decode?`: the reader of a component.
* `Percent.decode?_encode`: what is written for a text is read as this text.
* `Percent.encode_injective`: different texts are written in different ways.
* `Percent.plain_of_mem_encode`: no other characters are written than a component may hold.
-/

namespace Folio
namespace Percent

/-- The bytes that a component stands for. A `%` without two digits behind it stands for itself. -/
def decodeBytes : List Char → List UInt8
  | '%' :: a :: b :: rest =>
    match Text.hexDigit? a, Text.hexDigit? b with
    | some high, some low => UInt8.ofNat (16 * high + low) :: decodeBytes rest
    | _, _ => String.utf8EncodeChar '%' ++ decodeBytes (a :: b :: rest)
  | c :: rest => String.utf8EncodeChar c ++ decodeBytes rest
  | [] => []

/-- The text of a component, if its bytes are the UTF-8 form of one. -/
def decode? (s : List Char) : Option String :=
  String.fromUTF8? (decodeBytes s).toByteArray

/-! ## Bytes -/

theorem hexDigit?_hexDigit : ∀ n < 16, Text.hexDigit? (hexDigit n) = some n := by
  decide

theorem decodeBytes_encodeByte (b : UInt8) (rest : List Char) :
    decodeBytes (encodeByte b ++ rest) = b :: decodeBytes rest := by
  have hbyte : b.toNat < 256 := b.toNat_lt
  have hhigh : Text.hexDigit? (hexDigit (b.toNat / 16)) = some (b.toNat / 16) :=
    hexDigit?_hexDigit _ (by omega)
  have hlow : Text.hexDigit? (hexDigit (b.toNat % 16)) = some (b.toNat % 16) :=
    hexDigit?_hexDigit _ (by omega)
  have hwhole : UInt8.ofNat (16 * (b.toNat / 16) + b.toNat % 16) = b := by
    rw [Nat.div_add_mod, UInt8.ofNat_toNat]
  simp only [encodeByte, List.cons_append, List.nil_append]
  rw [decodeBytes, hhigh, hlow]
  exact congrArg (· :: decodeBytes rest) hwhole

theorem decodeBytes_encodeBytes (bs : List UInt8) (rest : List Char) :
    decodeBytes (bs.flatMap encodeByte ++ rest) = bs ++ decodeBytes rest := by
  induction bs with
  | nil => rfl
  | cons b bs ih =>
    rw [List.flatMap_cons, List.append_assoc, decodeBytes_encodeByte, ih, List.cons_append]

theorem decodeBytes_cons {c : Char} (hc : c ≠ '%') (rest : List Char) :
    decodeBytes (c :: rest) = String.utf8EncodeChar c ++ decodeBytes rest := by
  rw [decodeBytes]
  exact fun _ _ _ h _ => hc h

/-! ## Characters -/

theorem decodeBytes_encodeChar (c : Char) (rest : List Char) :
    decodeBytes (encodeChar c ++ rest) = String.utf8EncodeChar c ++ decodeBytes rest := by
  unfold encodeChar
  split
  · rename_i hplain
    have hc : c ≠ '%' := by
      rintro rfl
      exact absurd hplain (by decide)
    exact decodeBytes_cons hc rest
  · exact decodeBytes_encodeBytes _ rest

theorem decodeBytes_encode (s : List Char) :
    decodeBytes (encode s) = s.flatMap String.utf8EncodeChar := by
  induction s with
  | nil => rfl
  | cons c s ih =>
    have hencode : encode (c :: s) = encodeChar c ++ encode s := rfl
    rw [hencode, decodeBytes_encodeChar, ih, List.flatMap_cons]

theorem fromUTF8?_toByteArray (s : String) : String.fromUTF8? s.toByteArray = some s := by
  rw [String.fromUTF8?, dif_pos s.isValidUTF8]
  rfl

theorem decode?_encode (s : List Char) : decode? (encode s) = some (String.ofList s) := by
  have hbytes : (decodeBytes (encode s)).toByteArray = (String.ofList s).toByteArray := by
    rw [decodeBytes_encode, String.toByteArray_ofList, List.utf8Encode]
  rw [decode?, hbytes, fromUTF8?_toByteArray]

theorem encode_injective : Function.Injective encode := by
  intro s t h
  have hdecoded : some (String.ofList s) = some (String.ofList t) := by
    rw [← decode?_encode, h, decode?_encode]
  have htoList := congrArg String.toList (Option.some.inj hdecoded)
  rwa [String.toList_ofList, String.toList_ofList] at htoList

theorem plain_hexDigit : ∀ n < 16, (hexDigit n).isAlphanum = true := by
  decide

/-- A component holds ASCII letters and digits, the marks that stand for themselves, and `%`. -/
theorem plain_of_mem_encode {s : List Char} {c : Char} (h : c ∈ encode s) :
    c.isAlphanum = true ∨ c ∈ "-_.!~*'()%".toList := by
  obtain ⟨d, -, hc⟩ := List.mem_flatMap.mp h
  unfold encodeChar at hc
  split at hc
  · rename_i hplain
    obtain rfl := List.mem_singleton.mp hc
    have hmarks : "-_.!~*'()".toList ⊆ "-_.!~*'()%".toList := by
      decide
    rw [isUnreserved, Bool.or_eq_true, List.contains_iff_mem] at hplain
    exact hplain.imp_right fun hmark => hmarks hmark
  · obtain ⟨b, -, hb⟩ := List.mem_flatMap.mp hc
    have hbyte : b.toNat < 256 := b.toNat_lt
    simp only [encodeByte, List.mem_cons, List.not_mem_nil, or_false] at hb
    rcases hb with rfl | rfl | rfl
    · exact .inr (by decide)
    · exact .inl (plain_hexDigit _ (by omega))
    · exact .inl (plain_hexDigit _ (by omega))

end Percent
end Folio
