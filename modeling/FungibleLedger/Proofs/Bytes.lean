import Mathlib.Data.List.Induction
import Mathlib.Tactic.Ring
import FungibleLedger.Text.Utf8

/-!
# Byte strings as numbers and as texts

* `Bytes.toNat_ofNat`, `Bytes.ofNat_toNat` : writing a number in bytes and reading it back, in both
  orders.
* `Bytes.lt_iff_toNat_lt` : byte strings of one length are in the order of their numbers.
* `utf8_injective`, `Utf8.decode_eq_ok_iff` : a text is determined by its UTF-8 form, and read back
  from it, and nothing else is read.

Writing and reading are inductions on the last byte, which `Bytes.ofNat` writes and `Bytes.toNat`
adds. The order is one on the first byte, which decides it, and `Bytes.toNat_cons` says what that
byte counts for.
-/

namespace FungibleLedger

namespace Bytes

/-! ## Numbers -/

theorem toNat_concat (bytes : Bytes) (b : UInt8) :
    toNat (bytes ++ [b]) = toNat bytes * 256 + b.toNat := by
  simp [toNat]

theorem toNat_ofNat (width n : Nat) : toNat (ofNat width n) = n % 256 ^ width := by
  induction width generalizing n with
  | zero => simp [ofNat, toNat, Nat.mod_one]
  | succ width ih =>
    have hlast : (UInt8.ofNat (n % 256)).toNat = n % 256 := by
      rw [UInt8.toNat_ofNat_of_lt' (Nat.mod_lt n (by decide))]
    rw [ofNat, toNat_concat, ih, hlast, Nat.mul_comm, Nat.add_comm, pow_succ', Nat.mod_mul]

theorem toNat_ofNat_of_lt {width n : Nat} (h : n < 256 ^ width) : toNat (ofNat width n) = n := by
  rw [toNat_ofNat, Nat.mod_eq_of_lt h]

theorem ofNat_toNat (bytes : Bytes) : ofNat bytes.length (toNat bytes) = bytes := by
  induction bytes using List.reverseRecOn with
  | nil => rfl
  | append_singleton bytes b ih =>
    have hb : b.toNat < 256 := b.toNat_lt
    have hdiv : (toNat bytes * 256 + b.toNat) / 256 = toNat bytes := by omega
    have hmod : (toNat bytes * 256 + b.toNat) % 256 = b.toNat := by omega
    rw [List.length_append, List.length_singleton, ofNat, toNat_concat, hdiv, hmod, ih]
    simp

theorem ofNat_injective {width m n : Nat} (hm : m < 256 ^ width) (hn : n < 256 ^ width)
    (h : ofNat width m = ofNat width n) : m = n := by
  rw [← toNat_ofNat_of_lt hm, h, toNat_ofNat_of_lt hn]

theorem toNat_lt (bytes : Bytes) : toNat bytes < 256 ^ bytes.length := by
  have h := toNat_ofNat bytes.length (toNat bytes)
  rw [ofNat_toNat] at h
  rw [h]
  exact Nat.mod_lt _ (Nat.pow_pos (by decide))

theorem toNat_cons (b : UInt8) (bytes : Bytes) :
    toNat (b :: bytes) = b.toNat * 256 ^ bytes.length + toNat bytes := by
  induction bytes using List.reverseRecOn with
  | nil => simp [toNat]
  | append_singleton bytes last ih =>
    rw [← List.cons_append, toNat_concat, ih, toNat_concat, List.length_append,
      List.length_singleton, pow_succ]
    ring

/-- The lesser leading digit makes the lesser number. -/
theorem lt_of_leading_lt {x y m p : Nat} (h : x < y) (hm : m < p) (n : Nat) :
    x * p + m < y * p + n :=
  calc
    x * p + m < x * p + p := Nat.add_lt_add_left hm _
    _ = (x + 1) * p := (Nat.succ_mul x p).symm
    _ ≤ y * p := Nat.mul_le_mul_right p h
    _ ≤ y * p + n := Nat.le_add_right _ n

theorem lt_iff_toNat_lt {as bs : Bytes} (h : as.length = bs.length) :
    as < bs ↔ toNat as < toNat bs := by
  induction as generalizing bs with
  | nil =>
    cases bs with
    | nil => simp
    | cons b bs => simp at h
  | cons a as ih =>
    cases bs with
    | nil => simp at h
    | cons b bs =>
      have hlength : as.length = bs.length := Nat.succ.inj h
      have has := toNat_lt as
      have hbs := toNat_lt bs
      rw [hlength] at has
      rw [List.cons_lt_cons_iff, ih hlength, toNat_cons, toNat_cons, hlength,
        UInt8.lt_iff_toNat_lt, ← UInt8.toNat_inj]
      rcases Nat.lt_trichotomy a.toNat b.toNat with hlt | heq | hgt
      · simp [hlt, lt_of_leading_lt hlt has]
      · simp [heq]
      · have hback := lt_of_leading_lt hgt hbs (toNat as)
        omega

end Bytes

/-! ## Texts -/

theorem utf8_injective : Function.Injective utf8 := by
  intro s t h
  apply String.toByteArray_inj.1
  exact ByteArray.ext (Array.toList_inj.1 h)

theorem Utf8.decode_utf8 (s : String) : Utf8.decode (utf8 s) = .ok s := by
  have hread : String.fromUTF8? ⟨(utf8 s).toArray⟩ = some s := by
    show String.fromUTF8? s.toByteArray = some s
    rw [String.fromUTF8?, dif_pos s.isValidUTF8]
    rfl
  rw [Utf8.decode, hread]

/-- The byte strings that can be read as texts are the UTF-8 forms of texts. -/
theorem Utf8.decode_eq_ok_iff {bytes : Bytes} {s : String} :
    Utf8.decode bytes = .ok s ↔ bytes = utf8 s := by
  constructor
  · intro h
    rw [Utf8.decode, String.fromUTF8?] at h
    by_cases hvalid : (ByteArray.mk bytes.toArray).IsValidUTF8
    · rw [dif_pos hvalid] at h
      cases h
      rfl
    · rw [dif_neg hvalid] at h
      cases h
  · rintro rfl
    exact Utf8.decode_utf8 s

end FungibleLedger
