import FungibleLedger.Decimal.Binary64

/-!
# Shortest decimal text

The text of a binary64 number with the fewest significant digits that read back as the same
number, and of those the nearest to it.

* `Binary64.shortest` : the digits and the place of the decimal point.
* `Binary64.text` : the written form, positional from `1e-4` up to below `1e16`.
-/

namespace FungibleLedger.Binary64

/-- The decimal neighbours of a fraction with so many significant digits, of which the first has
the weight `10 ^ (place - 1)`: the nearer one first, and the even one first at equal distance. -/
def neighbours (num den : Nat) (place : Int) (digits : Nat) : List Nat :=
  let shift := (digits : Int) - place
  let (n, d) := if shift ≥ 0 then (num * Nat.pow 10 shift.toNat, den)
    else (num, den * Nat.pow 10 (-shift).toNat)
  let q := n / d
  if roundDiv n d = q then [q, q + 1] else [q + 1, q]

/-- The decimal place of a positive fraction: the least `p` with the fraction below `10 ^ p`. -/
def decimalPlace (num den : Nat) : Int :=
  let below (p : Int) : Bool :=
    if p ≥ 0 then num < den * Nat.pow 10 p.toNat else num * Nat.pow 10 (-p).toNat < den
  let guess : Int := (Nat.toDigits 10 num).length - (Nat.toDigits 10 den).length
  if below guess then guess else if below (guess + 1) then guess + 1 else guess + 2

/-- The fewest significant digits that read back as a positive finite number, and the place of
the decimal point relative to the first of them. -/
def shortest (mantissa : Nat) (exponent : Int) : List Char × Int :=
  let (num, den) := fraction mantissa exponent
  let place := decimalPlace num den
  let reads (digits decimal : Nat) : Bool :=
    match ofDecimal false decimal (place - digits) with
    | .finite _ m e =>
      let (n, d) := fraction m e
      n * den == num * d
    | _ => false
  let candidates := (List.range 17).flatMap fun k =>
    ((neighbours num den place (k + 1)).filter (reads (k + 1))).map ((k + 1, ·))
  match candidates.head? with
  | some (digits, decimal) =>
    let written := Nat.toDigits 10 decimal
    let kept := (written.reverse.dropWhile (· == '0')).reverse
    (kept, place + (written.length - digits : Int))
  | none => (['0'], 1)

/-- The text of a number: positional from `1e-4` up to below `1e16`, with a point always, and
otherwise with a signed exponent of at least two digits. -/
def text : Binary64 → String
  | .notANumber => "nan"
  | .infinite negative => if negative then "-inf" else "inf"
  | .finite negative mantissa exponent =>
    let sign := if negative then "-" else ""
    if mantissa = 0 then sign ++ "0.0"
    else
      let (digits, place) := shortest mantissa exponent
      let zeros (n : Int) : List Char := List.replicate n.toNat '0'
      let body : List Char :=
        if -4 < place ∧ place ≤ 16 then
          if place ≤ 0 then '0' :: '.' :: zeros (-place) ++ digits
          else if (digits.length : Int) ≤ place then
            digits ++ zeros (place - digits.length) ++ ['.', '0']
          else digits.take place.toNat ++ '.' :: digits.drop place.toNat
        else
          let power := place - 1
          let size := Nat.toDigits 10 power.natAbs
          let written := if size.length < 2 then '0' :: size else size
          let lead := match digits with
            | [d] => [d]
            | d :: rest => d :: '.' :: rest
            | [] => []
          lead ++ ['e', if power < 0 then '-' else '+'] ++ written
      sign ++ String.ofList body

end FungibleLedger.Binary64
