import FungibleLedger.Address
import FungibleLedger.Proofs.Bytes
import FungibleLedger.Storage.View

/-!
# Addresses are short

An address of either format is far shorter than the longest namespace:
`AddressFormat.length_le_limit`. So an owner whose name was checked always has a place for its
allowances.
-/

namespace FungibleLedger

theorem length_utf8_le (s : String) : (utf8 s).length ≤ 4 * s.toList.length := by
  have hsize : ∀ cs : List Char, cs.utf8Encode.size ≤ 4 * cs.length := by
    intro cs
    induction cs with
    | nil => simp
    | cons c cs ih =>
      have hc : (String.utf8EncodeChar c).length ≤ 4 := by
        rw [String.length_utf8EncodeChar]
        exact c.utf8Size_le_four
      rw [List.utf8Encode_cons, ByteArray.size_append, List.utf8Encode_singleton, List.length_cons]
      simp only [List.size_toByteArray]
      omega
  have hs := hsize s.toList
  rw [String.utf8Encode_toList] at hs
  exact hs

theorem length_le_length_utf8 (s : String) : s.toList.length ≤ (utf8 s).length := by
  have hsize : ∀ cs : List Char, cs.length ≤ cs.utf8Encode.size := by
    intro cs
    induction cs with
    | nil => simp
    | cons c cs ih =>
      have hc : 1 ≤ (String.utf8EncodeChar c).length := by
        rw [String.length_utf8EncodeChar]
        exact c.utf8Size_pos
      rw [List.utf8Encode_cons, ByteArray.size_append, List.utf8Encode_singleton, List.length_cons]
      simp only [List.size_toByteArray]
      omega
  have hs := hsize s.toList
  rw [String.utf8Encode_toList] at hs
  exact hs

theorem Base64.length_encodeChars_le (bytes : Bytes) :
    (encodeChars bytes).length ≤ 4 * bytes.length := by
  fun_induction encodeChars bytes with
  | case1 a b c rest ih =>
    simp only [List.length_cons] at ih ⊢
    omega
  | case2 a b => simp
  | case3 a => simp
  | case4 => simp

namespace AddressFormat

theorem length_le_limit {format : AddressFormat} {address : String}
    (h : format.fault? address = none) : (utf8 address).length ≤ Namespace.limit := by
  have hbytes := length_utf8_le address
  have hlimit : Namespace.limit = 65535 := rfl
  have hchars : address.toList.length ≤ 128 := by
    cases format with
    | simple =>
      simp only [fault?] at h
      split at h
      · next hsimple => omega
      · cases h
    | key =>
      simp only [fault?] at h
      split at h
      · cases h
      · split at h
        · cases h
        · next bytes _ =>
          split at h
          · cases h
          · next hlength =>
            split at h
            · cases h
            · next hcanonical =>
              have hkey : bytes.length = publicKeyLength := Decidable.not_not.1 hlength
              have heq : Base64.encode bytes = address := Decidable.not_not.1 hcanonical
              have hle := Base64.length_encodeChars_le bytes
              rw [← heq, Base64.encode, String.toList_ofList]
              rw [hkey, publicKeyLength] at hle
              omega
  omega

end AddressFormat

end FungibleLedger
