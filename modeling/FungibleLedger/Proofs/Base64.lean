import Mathlib.Data.List.Basic
import FungibleLedger.Base64

/-!
# Base64 is read back

The written form of a byte string is read back in both modes (`Base64.decode_encode`), so that it
belongs to one byte string only. Which texts are written forms can be seen from their characters:
with one padding, all digits of the alphabet are taken before it, but the last of them has two bits
to spare, which are zero (`Base64.exists_encodeChars_iff`).

Both are inductions on groups of three bytes. A reader that has completed a group keeps nothing of
it but its bytes, which is the state `Reader.rested` that the induction goes on from.
-/

namespace FungibleLedger.Base64

/-! ## Digits -/

theorem value?_digit : ∀ v < 64, value? (digit v) = some v := by
  decide

theorem digit_ne_padding : ∀ v < 64, digit v ≠ '=' := by
  decide

theorem toNat_digit_lt : ∀ v < 64, (digit v).toNat < 128 := by
  decide

example : (List.range 64).map digit =
    "ABCDEFGHIJKLMNOPQRSTUVWXYZabcdefghijklmnopqrstuvwxyz0123456789+/".toList := by
  decide

/-! ## Reading -/

namespace Reader

variable {strict : Bool} {r : Reader} {v : ℕ} {rest : List Char}

/-- The state of a reader of whole groups, without padding. -/
def rested (done : Bytes) : Reader := ⟨done, 0, 0, 0, false⟩

theorem run_digit (hv : v < 64) (hpadded : r.padded = false) :
    r.run strict (digit v :: rest) = (r.push v).run strict rest := by
  rw [run, if_neg (digit_ne_padding v hv), value?_digit v hv]
  simp [hpadded]

theorem ofNat_eq {n : ℕ} {b : UInt8} (h : n = b.toNat) : UInt8.ofNat n = b := by
  rw [h, UInt8.ofNat_toNat]

/-- The first two digits of a group write its first byte. -/
theorem run_first (done : Bytes) (a : UInt8) (hv : v < 16) :
    (rested done).run strict (digit (a.toNat / 4) :: digit (a.toNat % 4 * 16 + v) :: rest) =
      (Reader.mk (a :: done) 2 v 0 false).run strict rest := by
  have ha := a.toNat_lt
  have hbyte : UInt8.ofNat (a.toNat / 4 * 4 + (a.toNat % 4 * 16 + v) / 16) = a :=
    ofNat_eq (by omega)
  have hleft : (a.toNat % 4 * 16 + v) % 16 = v := by omega
  rw [run_digit (by omega) rfl, run_digit (by omega) rfl]
  simp only [rested, push, hbyte, hleft]

/-- The third digit of a group completes its second byte. -/
theorem run_second (done : Bytes) (b : UInt8) (hv : v < 4) :
    (Reader.mk done 2 (b.toNat / 16) 0 false).run strict (digit (b.toNat % 16 * 4 + v) :: rest) =
      (Reader.mk (b :: done) 3 v 0 false).run strict rest := by
  have hb := b.toNat_lt
  have hbyte : UInt8.ofNat (b.toNat / 16 * 16 + (b.toNat % 16 * 4 + v) / 4) = b :=
    ofNat_eq (by omega)
  have hleft : (b.toNat % 16 * 4 + v) % 4 = v := by omega
  rw [run_digit (by omega) rfl]
  simp only [push, hbyte, hleft]

/-- The fourth digit of a group completes its third byte. -/
theorem run_third (done : Bytes) (c : UInt8) :
    (Reader.mk done 3 (c.toNat / 64) 0 false).run strict (digit (c.toNat % 64) :: rest) =
      (rested (c :: done)).run strict rest := by
  have hc := c.toNat_lt
  have hbyte : UInt8.ofNat (c.toNat / 64 * 64 + c.toNat % 64) = c := ofNat_eq (by omega)
  rw [run_digit (by omega) rfl]
  simp only [push, rested, hbyte]

/-- The rest of a text that writes bytes is read behind those read so far. -/
theorem run_encodeChars (strict : Bool) (done bytes : Bytes) :
    (rested done).run strict (encodeChars bytes) = .ok (done.reverse ++ bytes) := by
  fun_induction encodeChars bytes generalizing done with
  | case1 a b c rest ih =>
    have hb := b.toNat_lt
    have hc := c.toNat_lt
    rw [run_first done a (by omega), run_second _ b (by omega), run_third, ih]
    simp
  | case2 a b =>
    have hb := b.toNat_lt
    rw [run_first done a (by omega), ← Nat.add_zero (b.toNat % 16 * 4),
      run_second _ b (by omega)]
    simp [run]
  | case3 a =>
    rw [← Nat.add_zero (a.toNat % 4 * 16), run_first done a (by omega)]
    simp [run]
  | case4 => simp [run, finish, rested]

end Reader

/-! ## Written forms -/

/-- A written form consists of digits and padding. -/
theorem mem_encodeChars (bytes : Bytes) :
    ∀ c ∈ encodeChars bytes, c = '=' ∨ ∃ v < 64, c = digit v := by
  have hdigit : ∀ v < 64, digit v = '=' ∨ ∃ w < 64, digit v = digit w :=
    fun v hv => .inr ⟨v, hv, rfl⟩
  fun_induction encodeChars bytes with
  | case1 a b c rest ih =>
    have ha := a.toNat_lt
    have hb := b.toNat_lt
    have hc := c.toNat_lt
    simp only [List.forall_mem_cons]
    exact ⟨hdigit _ (by omega), hdigit _ (by omega), hdigit _ (by omega), hdigit _ (by omega), ih⟩
  | case2 a b =>
    have ha := a.toNat_lt
    have hb := b.toNat_lt
    simp only [List.forall_mem_cons]
    exact ⟨hdigit _ (by omega), hdigit _ (by omega), hdigit _ (by omega), .inl trivial, nofun⟩
  | case3 a =>
    have ha := a.toNat_lt
    simp only [List.forall_mem_cons]
    exact ⟨hdigit _ (by omega), hdigit _ (by omega), .inl trivial, .inl trivial, nofun⟩
  | case4 => nofun

theorem toNat_lt_of_mem_encodeChars {bytes : Bytes} {c : Char} (hc : c ∈ encodeChars bytes) :
    c.toNat < 128 := by
  rcases mem_encodeChars bytes c hc with rfl | ⟨v, hv, rfl⟩
  · decide
  · exact toNat_digit_lt v hv

theorem head?_encodeChars_ne (bytes : Bytes) : (encodeChars bytes).head? ≠ some '=' := by
  have hdigit : ∀ {n : ℕ}, n < 256 → digit (n / 4) ≠ '=' := fun hn =>
    digit_ne_padding _ (by omega)
  fun_cases encodeChars bytes with
  | case1 a b c rest => simpa using hdigit a.toNat_lt
  | case2 a b => simpa using hdigit a.toNat_lt
  | case3 a => simpa using hdigit a.toNat_lt
  | case4 => simp

/-- A byte string is read back from its written form, in both modes. -/
theorem decode_encode (strict : Bool) (bytes : Bytes) :
    decode strict (encode bytes) = .ok bytes := by
  have hascii : ¬ (encodeChars bytes).any (fun c => c.toNat ≥ 128) = true := by
    rw [List.any_eq_true]
    rintro ⟨c, hc, hcode⟩
    have hlt := toNat_lt_of_mem_encodeChars hc
    simp only [decide_eq_true_eq] at hcode
    omega
  have hhead : ¬ (strict && (encodeChars bytes).head? == some '=') = true := by
    simp [head?_encodeChars_ne bytes]
  rw [decode, encode, String.toList_ofList]
  rw [if_neg hascii, if_neg hhead]
  exact Reader.run_encodeChars strict [] bytes

/-! ## The look of a written form -/

/-- Some digits, one more whose last two bits are zero, and one padding. -/
def Padded (digits : ℕ) (cs : List Char) : Prop :=
  ∃ (values : List ℕ) (k : ℕ), values.length = digits ∧ (∀ v ∈ values, v < 64) ∧ k < 16 ∧
    cs = values.map digit ++ [digit (4 * k), '=']

theorem padded_encodeChars (groups : ℕ) {bytes : Bytes} (hlength : bytes.length = 3 * groups + 2) :
    Padded (4 * groups + 2) (encodeChars bytes) := by
  induction groups generalizing bytes with
  | zero =>
    match bytes, hlength with
    | [a, b], _ =>
      have ha := a.toNat_lt
      have hb := b.toNat_lt
      refine ⟨[a.toNat / 4, a.toNat % 4 * 16 + b.toNat / 16], b.toNat % 16, rfl, ?_, by omega, ?_⟩
      · simp only [List.forall_mem_cons]
        exact ⟨by omega, by omega, nofun⟩
      · rw [encodeChars, Nat.mul_comm 4]
        rfl
  | succ groups ih =>
    match bytes, hlength with
    | a :: b :: c :: rest, hlength =>
      have ha := a.toNat_lt
      have hb := b.toNat_lt
      have hc := c.toNat_lt
      simp only [List.length_cons] at hlength
      have hshorter : rest.length = 3 * groups + 2 := by omega
      obtain ⟨values, k, hcount, hvalues, hk, hrest⟩ := ih hshorter
      refine ⟨a.toNat / 4 :: (a.toNat % 4 * 16 + b.toNat / 16) ::
        (b.toNat % 16 * 4 + c.toNat / 64) :: c.toNat % 64 :: values, k, ?_, ?_, hk, ?_⟩
      · simp only [List.length_cons]
        omega
      · simp only [List.forall_mem_cons]
        exact ⟨by omega, by omega, by omega, by omega, hvalues⟩
      · rw [encodeChars, hrest]
        rfl

theorem exists_encodeChars_of_padded (groups : ℕ) {cs : List Char}
    (hcs : Padded (4 * groups + 2) cs) :
    ∃ bytes : Bytes, bytes.length = 3 * groups + 2 ∧ encodeChars bytes = cs := by
  obtain ⟨values, k, hcount, hvalues, hk, rfl⟩ := hcs
  have hbyte : ∀ n < 256, (UInt8.ofNat n).toNat = n := fun n hn => UInt8.toNat_ofNat_of_lt' hn
  induction groups generalizing values with
  | zero =>
    match values, hcount with
    | [x, y], _ =>
      simp only [List.forall_mem_cons] at hvalues
      obtain ⟨hx, hy, -⟩ := hvalues
      refine ⟨[UInt8.ofNat (x * 4 + y / 16), UInt8.ofNat (y % 16 * 16 + k)], rfl, ?_⟩
      have hfirst : (x * 4 + y / 16) / 4 = x := by omega
      have hsecond : (x * 4 + y / 16) % 4 * 16 + (y % 16 * 16 + k) / 16 = y := by omega
      have hthird : (y % 16 * 16 + k) % 16 * 4 = 4 * k := by omega
      rw [encodeChars, hbyte _ (by omega), hbyte _ (by omega), hfirst, hsecond, hthird]
      rfl
  | succ groups ih =>
    match values, hcount with
    | x :: y :: z :: w :: values, hcount =>
      simp only [List.forall_mem_cons] at hvalues
      obtain ⟨hx, hy, hz, hw, hvalues⟩ := hvalues
      simp only [List.length_cons] at hcount
      obtain ⟨rest, hlength, hrest⟩ := ih values (by omega) hvalues
      refine ⟨UInt8.ofNat (x * 4 + y / 16) :: UInt8.ofNat (y % 16 * 16 + z / 4) ::
        UInt8.ofNat (z % 4 * 64 + w) :: rest, by simp only [List.length_cons]; omega, ?_⟩
      have hfirst : (x * 4 + y / 16) / 4 = x := by omega
      have hsecond : (x * 4 + y / 16) % 4 * 16 + (y % 16 * 16 + z / 4) / 16 = y := by omega
      have hthird : (y % 16 * 16 + z / 4) % 16 * 4 + (z % 4 * 64 + w) / 64 = z := by omega
      have hfourth : (z % 4 * 64 + w) % 64 = w := by omega
      rw [encodeChars, hbyte _ (by omega), hbyte _ (by omega), hbyte _ (by omega), hfirst, hsecond,
        hthird, hfourth, hrest]
      rfl

/-- The texts that write whole groups of bytes and two bytes more are those of this look. -/
theorem exists_encodeChars_iff (groups : ℕ) (cs : List Char) :
    (∃ bytes : Bytes, bytes.length = 3 * groups + 2 ∧ encodeChars bytes = cs) ↔
      Padded (4 * groups + 2) cs := by
  constructor
  · rintro ⟨bytes, hlength, rfl⟩
    exact padded_encodeChars groups hlength
  · exact exists_encodeChars_of_padded groups

end FungibleLedger.Base64
