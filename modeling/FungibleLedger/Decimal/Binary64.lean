/-!
# Double-precision numbers

A number of the binary64 format, held as its exact value, and the rounding of a decimal literal to
it. Everything is arithmetic on natural numbers.

* `Binary64` : a signed dyadic number, an infinity or the number that is none.
* `Binary64.ofDecimal` : the number nearest to `digits * 10 ^ exponent`, a tie going to the even
  neighbour.
* `Binary64.toInt?` : the whole number that a finite value is, if it is one.
-/

namespace FungibleLedger

/-- A binary64 number: `mantissa * 2 ^ exponent` with a sign, or one of the special values. The
mantissa is below `2 ^ 53` and the exponent is at least `-1074`. -/
inductive Binary64
  | finite (negative : Bool) (mantissa : Nat) (exponent : Int)
  | infinite (negative : Bool)
  | notANumber
deriving DecidableEq

namespace Binary64

/-- The quotient of two numbers, rounded to the nearest whole number, a tie to the even one. -/
def roundDiv (num den : Nat) : Nat :=
  let q := num / den
  let r := num % den
  if 2 * r > den ∨ (2 * r = den ∧ q % 2 = 1) then q + 1 else q

/-- The quotient of two positive numbers, rounded to 53 significant bits and to a multiple of
`2 ^ (-1074)`: a mantissa and an exponent, or nothing when it lies beyond the greatest number. -/
def roundQuotient (num den : Nat) : Option (Nat × Int) :=
  -- the quotient lies in `[2 ^ (size - 1), 2 ^ (size + 1))`
  let size : Int := (Nat.log2 num : Int) - Nat.log2 den
  let scale (e : Int) : Nat × Nat :=
    if e ≥ 0 then (num, den * Nat.pow 2 e.toNat) else (num * Nat.pow 2 (-e).toNat, den)
  let fits (e : Int) : Bool := (scale e).1 < (scale e).2 * Nat.pow 2 53
  let least : Int := -1074
  let e := max least (if fits (size - 53) then size - 53 else size - 52)
  let (n, d) := scale e
  let m := roundDiv n d
  let (m, e) := if m = Nat.pow 2 53 then (Nat.pow 2 52, e + 1) else (m, e)
  if e > 971 then none else some (m, e)

/-- The number nearest to `digits * 10 ^ exponent`. Beyond the greatest number it is infinite, and
an exponent so small that nothing but zero is near is not worked out. -/
def ofDecimal (negative : Bool) (digits : Nat) (exponent : Int) : Binary64 :=
  let size : Int := (Nat.toDigits 10 digits).length
  if digits = 0 ∨ size + exponent < -330 then .finite negative 0 0
  else if size + exponent > 330 then .infinite negative
  else
    let rounded :=
      if exponent ≥ 0 then roundQuotient (digits * Nat.pow 10 exponent.toNat) 1
      else roundQuotient digits (Nat.pow 10 (-exponent).toNat)
    match rounded with
    | some (m, e) => .finite negative m e
    | none => .infinite negative

/-- The size of a finite value as a fraction. -/
def fraction (mantissa : Nat) (exponent : Int) : Nat × Nat :=
  if exponent ≥ 0 then (mantissa * Nat.pow 2 exponent.toNat, 1)
  else (mantissa, Nat.pow 2 (-exponent).toNat)

/-- The whole number that a finite value is, if it is one. -/
def toInt? : Binary64 → Option Int
  | .finite negative mantissa exponent =>
    let (num, den) := fraction mantissa exponent
    let size : Int := (num / den : Nat)
    if num % den = 0 then some (if negative then -size else size) else none
  | _ => none

end Binary64

end FungibleLedger
