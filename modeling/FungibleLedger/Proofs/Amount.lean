import FungibleLedger.Amount
import FungibleLedger.Proofs.Bytes

/-!
# Laws of amounts

* `Amount.decode_toBytes`, `Amount.toBytes_of_decode` : the stored form of an amount and the
  amount of a stored form.
* `Amount.encode_decode` : whole numbers to stored forms and back, where there is one.
* `Amount.plus`, `Amount.less` : sum and difference of amounts, and what the checked arithmetic of
  whole numbers has to do with them.
-/

namespace FungibleLedger

namespace Amount

theorem bound_eq : bound = 256 ^ width := by
  decide

theorem ext_val {a b : Amount} (h : a.val = b.val) : a = b := by
  cases a
  cases b
  cases h
  rfl

/-! ## The stored form -/

theorem length_toBytes (a : Amount) : a.toBytes.length = width :=
  Bytes.length_ofNat width a.val

theorem toNat_toBytes (a : Amount) : a.toBytes.toNat = a.val := by
  have ha : a.val < 256 ^ width := lt_of_lt_of_eq a.val_lt bound_eq
  rw [toBytes, Bytes.toNat_ofNat_of_lt ha]

theorem decode_of_length {bytes : Bytes} (h : bytes.length = width) :
    decode bytes = .ok ⟨bytes.toNat, toNat_lt_of_length h⟩ := by
  rw [decode, dif_pos h]

theorem decode_toBytes (a : Amount) : decode a.toBytes = .ok a := by
  rw [decode_of_length a.length_toBytes, Except.ok.injEq]
  apply ext_val
  dsimp only
  rw [toNat_toBytes]

theorem length_of_decode {bytes : Bytes} {a : Amount} (h : decode bytes = .ok a) :
    bytes.length = width := by
  by_contra hlength
  rw [decode, dif_neg hlength] at h
  cases h

theorem toBytes_of_decode {bytes : Bytes} {a : Amount} (h : decode bytes = .ok a) :
    a.toBytes = bytes := by
  have hlength := length_of_decode h
  rw [decode_of_length hlength] at h
  cases h
  show Bytes.ofNat width bytes.toNat = bytes
  rw [← hlength, Bytes.ofNat_toNat]

theorem ofInt_val (a : Amount) : ofInt a.val = .ok a := by
  have ha : (a.val : Int).toNat < bound := a.val_lt
  rw [ofInt, if_neg (by omega), dif_pos ha]
  rfl

theorem val_of_ofInt {n : Int} {a : Amount} (h : ofInt n = .ok a) : (a.val : Int) = n := by
  unfold ofInt at h
  split at h
  · cases h
  · next hn =>
    split at h
    · have hval := congrArg Amount.val (Except.ok.inj h)
      dsimp only at hval
      omega
    · cases h

/-! ## Whole numbers and their stored forms -/

theorem bound_eq_two_pow : (bound : Int) = 2 ^ 128 := by
  decide

theorem encode_val (a : Amount) : encode a.val = .ok a.toBytes := by
  rw [encode, ofInt_val]
  rfl

theorem exists_of_encode {n : Int} {bytes : Bytes} (h : encode n = .ok bytes) :
    ∃ a : Amount, (a.val : Int) = n ∧ a.toBytes = bytes := by
  rw [encode] at h
  cases ha : ofInt n with
  | error e =>
    rw [ha] at h
    cases h
  | ok a =>
    rw [ha] at h
    exact ⟨a, val_of_ofInt ha, Except.ok.inj h⟩

theorem encode_of_range {n : Int} (h : ¬ (0 ≤ n ∧ n < 2 ^ 128)) :
    encode n = .error (if n < 0 then .negative else .tooLarge) := by
  rw [← bound_eq_two_pow] at h
  rw [encode, ofInt]
  by_cases hn : n < 0
  · rw [if_pos hn, if_pos hn]
    rfl
  · have hbound : ¬ n.toNat < bound := by omega
    rw [if_neg hn, if_neg hn, dif_neg hbound]
    rfl

theorem decode_of_length_ne {bytes : Bytes} (h : bytes.length ≠ width) :
    decode bytes = .error ⟨bytes.length⟩ := by
  rw [decode, dif_neg h]

theorem exists_val_eq {n : Int} (h : 0 ≤ n ∧ n < 2 ^ 128) : ∃ a : Amount, (a.val : Int) = n := by
  rw [← bound_eq_two_pow] at h
  exact ⟨⟨n.toNat, by omega⟩, Int.toNat_of_nonneg h.1⟩

theorem exists_toBytes_eq {bytes : Bytes} (h : bytes.length = width) :
    ∃ a : Amount, a.toBytes = bytes :=
  ⟨_, toBytes_of_decode (decode_of_length h)⟩

theorem val_nonneg_and_lt (a : Amount) : 0 ≤ (a.val : Int) ∧ (a.val : Int) < 2 ^ 128 := by
  have ha := a.val_lt
  rw [← bound_eq_two_pow]
  omega

theorem toBytes_lt_iff (a b : Amount) : a.toBytes < b.toBytes ↔ a.val < b.val := by
  rw [Bytes.lt_iff_toNat_lt (a.length_toBytes.trans b.length_toBytes.symm), toNat_toBytes,
    toNat_toBytes]

/-- The numbers of 128 bits and the byte strings of length 16 write each other, in the same order;
every other number and every other byte string is refused. -/
theorem encode_decode :
    (∀ n : Int,
      if 0 ≤ n ∧ n < 2 ^ 128 then
        ∃ bytes a, encode n = .ok bytes ∧ bytes.length = 16 ∧ decode bytes = .ok a ∧ a.val = n
      else encode n = .error (if n < 0 then .negative else .tooLarge)) ∧
    (∀ bytes : Bytes,
      if bytes.length = 16 then
        ∃ (a : Amount) (n : Int), decode bytes = .ok a ∧ a.val = n ∧ 0 ≤ n ∧ n < 2 ^ 128 ∧
          encode n = .ok bytes
      else decode bytes = .error ⟨bytes.length⟩) ∧
    ∀ m n bytes bytes', encode m = .ok bytes → encode n = .ok bytes' →
      (bytes < bytes' ↔ m < n) := by
  refine ⟨fun n => ?_, fun bytes => ?_, fun m n bytes bytes' hm hn => ?_⟩
  · split
    · next hrange =>
      obtain ⟨a, rfl⟩ := exists_val_eq hrange
      exact ⟨a.toBytes, a, a.encode_val, a.length_toBytes, a.decode_toBytes, rfl⟩
    · next hrange => exact encode_of_range hrange
  · split
    · next hlength =>
      obtain ⟨a, rfl⟩ := exists_toBytes_eq hlength
      obtain ⟨hnonneg, hlt⟩ := a.val_nonneg_and_lt
      exact ⟨a, a.val, a.decode_toBytes, rfl, hnonneg, hlt, a.encode_val⟩
    · next hlength => exact decode_of_length_ne hlength
  · obtain ⟨a, rfl, rfl⟩ := exists_of_encode hm
    obtain ⟨b, rfl, rfl⟩ := exists_of_encode hn
    rw [toBytes_lt_iff, Int.ofNat_lt]

/-- The order of the stored forms at the carry into the last byte but one, and the edges of the
range. -/
theorem encode_decode_edges :
    (List.replicate 15 0 ++ [255] : Bytes) < List.replicate 14 0 ++ [1, 0] ∧
      encode (2 ^ 128 - 1) = .ok (List.replicate 16 255) ∧
      encode (2 ^ 128) = .error .tooLarge ∧ decode (List.replicate 17 0) = .error ⟨17⟩ := by
  obtain ⟨hnumbers, hbytes, horder⟩ := encode_decode
  have hlow : encode 255 = .ok (List.replicate 15 0 ++ [255]) := by decide
  have hhigh : encode 256 = .ok (List.replicate 14 0 ++ [1, 0]) := by decide
  have hbeyond := hnumbers (2 ^ 128)
  rw [if_neg (by decide), if_neg (by decide)] at hbeyond
  exact ⟨(horder 255 256 _ _ hlow hhigh).2 (by decide), by decide, hbeyond,
    hbytes (List.replicate 17 0)⟩

/-! ## Sums and differences -/

theorem lt_iff {a b : Amount} : a < b ↔ a.val < b.val := Iff.rfl

/-- The sum of two amounts, if it is an amount. -/
def plus (a b : Amount) : Except SumOverflow Amount :=
  if h : a.val + b.val < bound then .ok ⟨a.val + b.val, h⟩ else .error ⟨a.val, b.val⟩

/-- The difference of two amounts, nothing if it would be less than that. -/
def less (a b : Amount) : Amount :=
  ⟨a.val - b.val, Nat.lt_of_le_of_lt (Nat.sub_le _ _) a.val_lt⟩

@[simp] theorem val_zero : zero.val = 0 := rfl

@[simp] theorem val_less (a b : Amount) : (a.less b).val = a.val - b.val := rfl

theorem val_of_plus {a b c : Amount} (h : a.plus b = .ok c) : c.val = a.val + b.val := by
  rw [plus] at h
  split at h
  · cases h
    rfl
  · cases h

theorem plus_of_val {a b c : Amount} (h : c.val = a.val + b.val) : a.plus b = .ok c := by
  have hlt : a.val + b.val < bound := h ▸ c.val_lt
  rw [plus, dif_pos hlt, Except.ok.injEq]
  exact ext_val h.symm

theorem plus_eq_ok_iff {a b c : Amount} : a.plus b = .ok c ↔ c.val = a.val + b.val :=
  ⟨val_of_plus, plus_of_val⟩

theorem cast_less {a b : Amount} (h : ¬ a < b) : ((a.less b).val : Int) = a.val - b.val := by
  rw [lt_iff] at h
  rw [val_less]
  omega

theorem checkedAdd_val (a b : Amount) :
    checkedAdd a.val b.val = (a.plus b).map fun c => (c.val : Int) := by
  have hgreatest : (greatest : Int) + 1 = bound := by decide
  rw [checkedAdd, plus]
  by_cases h : a.val + b.val < bound
  · rw [if_neg (by omega), dif_pos h]
    rfl
  · rw [if_pos (by omega), dif_neg h]
    rfl

theorem checkedSub_val {a b : Amount} (h : ¬ a < b) :
    checkedSub a.val b.val = .ok ((a.less b).val : Int) := by
  rw [cast_less h, checkedSub, if_neg]
  rw [lt_iff] at h
  omega

theorem checkedSub_of_lt {a b : Amount} (h : a < b) :
    checkedSub a.val b.val = .error ⟨a.val, b.val⟩ := by
  rw [checkedSub, if_pos]
  rw [lt_iff] at h
  omega

end Amount

end FungibleLedger
