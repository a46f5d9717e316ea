import FungibleLedger.Bytes

/-!
# Token amounts

An amount is a number of at most 128 bits. Stored amounts are sixteen bytes, most significant first.

* `Amount.encode`, `Amount.decode` : the fixed-width form of a number and the amount of such a form,
  with their failures.
* `checkedAdd`, `checkedSub` : the arithmetic of balances and of the total supply.
-/

namespace FungibleLedger

/-- The least number with more than 128 bits. -/
def Amount.bound : Nat := 340282366920938463463374607431768211456

/-- A number of base units of at most 128 bits. -/
structure Amount where
  val : Nat
  val_lt : val < Amount.bound
deriving DecidableEq

namespace Amount

/-- How many bytes a stored amount takes. -/
def width : Nat := 16

/-- The greatest amount. -/
def greatest : Nat := bound - 1

/-- The amount of nothing. -/
def zero : Amount := ⟨0, by decide⟩

/-- Why a number has no fixed-width form. -/
inductive RangeError
  | negative
  | tooLarge
deriving DecidableEq

/-- The wording of a range error. -/
def RangeError.message : RangeError → String
  | .negative => "can't convert negative int to unsigned"
  | .tooLarge => "int too big to convert"

/-- The amount that a number denotes. -/
def ofInt (n : Int) : Except RangeError Amount :=
  if n < 0 then .error .negative
  else if h : n.toNat < bound then .ok ⟨n.toNat, h⟩
  else .error .tooLarge

/-- The stored form of an amount. -/
def toBytes (a : Amount) : Bytes :=
  Bytes.ofNat width a.val

/-- The stored form of a number, if it denotes an amount. -/
def encode (n : Int) : Except RangeError Bytes :=
  (ofInt n).map toBytes

/-- A stored number whose length is not that of an amount. -/
structure WidthError where
  length : Nat
deriving DecidableEq

/-- The wording of a width error. -/
def WidthError.message (e : WidthError) : String :=
  s!"Corrupted data found. {width} byte expected, got {e.length}"

theorem toNat_foldl_lt (bytes : Bytes) (n : Nat) :
    bytes.foldl (fun n b => n * 256 + b.toNat) n < (n + 1) * Nat.pow 256 bytes.length := by
  induction bytes generalizing n with
  | nil => simp
  | cons b bytes ih =>
    have hb : b.toNat < 256 := b.toNat_lt
    have hstep : (n * 256 + b.toNat + 1) * Nat.pow 256 bytes.length ≤
        (n + 1) * (256 * Nat.pow 256 bytes.length) := by
      rw [← Nat.mul_assoc]
      exact Nat.mul_le_mul_right _ (by omega)
    have hpow : Nat.pow 256 (bytes.length + 1) = 256 * Nat.pow 256 bytes.length :=
      Nat.mul_comm _ _
    rw [List.length_cons, hpow]
    exact Nat.lt_of_lt_of_le (ih _) hstep

theorem toNat_lt_of_length {bytes : Bytes} (h : bytes.length = width) :
    bytes.toNat < bound := by
  have := toNat_foldl_lt bytes 0
  rw [h] at this
  exact this

/-- The amount that a stored record holds. -/
def decode (bytes : Bytes) : Except WidthError Amount :=
  if h : bytes.length = width then .ok ⟨bytes.toNat, toNat_lt_of_length h⟩
  else .error ⟨bytes.length⟩

instance : LE Amount := ⟨fun a b => a.val ≤ b.val⟩
instance : LT Amount := ⟨fun a b => a.val < b.val⟩
instance (a b : Amount) : Decidable (a ≤ b) := inferInstanceAs (Decidable (a.val ≤ b.val))
instance (a b : Amount) : Decidable (a < b) := inferInstanceAs (Decidable (a.val < b.val))

/-- The decimal digits of an amount. -/
def digits (a : Amount) : String := toString a.val

end Amount

/-- A sum above the greatest amount. -/
structure SumOverflow where
  left : Int
  right : Int
deriving DecidableEq

/-- The wording of an overflow. -/
def SumOverflow.message (e : SumOverflow) : String :=
  s!"Cannot add {e.left} + {e.right}: exceeds 128-bit range"

/-- The sum of two numbers, refused above the greatest amount. -/
def checkedAdd (a b : Int) : Except SumOverflow Int :=
  if a + b > Amount.greatest then .error ⟨a, b⟩ else .ok (a + b)

/-- A difference below zero. -/
structure NegativeDifference where
  minuend : Int
  subtrahend : Int
deriving DecidableEq

/-- The wording of a negative difference. -/
def NegativeDifference.message (e : NegativeDifference) : String :=
  s!"Cannot subtract {e.subtrahend} from {e.minuend}: result would be negative"

/-- The difference of two numbers, refused below zero. -/
def checkedSub (a b : Int) : Except NegativeDifference Int :=
  if b > a then .error ⟨a, b⟩ else .ok (a - b)

end FungibleLedger
