import FungibleLedger.Bytes

/-!
# Base64

The standard alphabet with padding. Writing is unambiguous; reading comes in two modes, a strict
one that takes the alphabet and padding at the end only, and a lenient one that passes over what
it does not know.

* `Base64.encode` : the written form of a byte string.
* `Base64.decode` : the byte string that a text writes.
* `Base64.Fault` : why a text writes none.
-/

namespace FungibleLedger.Base64

/-- The digit of a six-bit value. -/
def digit (v : Nat) : Char :=
  if v < 26 then Char.ofNat ('A'.toNat + v)
  else if v < 52 then Char.ofNat ('a'.toNat + (v - 26))
  else if v < 62 then Char.ofNat ('0'.toNat + (v - 52))
  else if v = 62 then '+'
  else '/'

/-- The six-bit value of a digit. -/
def value? (c : Char) : Option Nat :=
  if 'A' ≤ c ∧ c ≤ 'Z' then some (c.toNat - 'A'.toNat)
  else if 'a' ≤ c ∧ c ≤ 'z' then some (c.toNat - 'a'.toNat + 26)
  else if '0' ≤ c ∧ c ≤ '9' then some (c.toNat - '0'.toNat + 52)
  else if c = '+' then some 62
  else if c = '/' then some 63
  else none

/-- The characters of a byte string: four for each three bytes, the last group padded. -/
def encodeChars : Bytes → List Char
  | a :: b :: c :: rest =>
    digit (a.toNat / 4) :: digit (a.toNat % 4 * 16 + b.toNat / 16) ::
      digit (b.toNat % 16 * 4 + c.toNat / 64) :: digit (c.toNat % 64) :: encodeChars rest
  | [a, b] =>
    [digit (a.toNat / 4), digit (a.toNat % 4 * 16 + b.toNat / 16), digit (b.toNat % 16 * 4), '=']
  | [a] => [digit (a.toNat / 4), digit (a.toNat % 4 * 16), '=', '=']
  | [] => []

/-- The written form of a byte string. -/
def encode (bytes : Bytes) : String :=
  String.ofList (encodeChars bytes)

/-- Why a text writes no byte string. -/
inductive Fault
  | notAscii
  | leadingPadding
  | excessData
  | notInAlphabet
  | brokenPadding
  | loneDigit (digits : Nat)
  | missingPadding
deriving DecidableEq

/-- The wording of a fault. -/
def Fault.message : Fault → String
  | .notAscii => "string argument should contain only ASCII characters"
  | .leadingPadding => "Leading padding not allowed"
  | .excessData => "Excess data after padding"
  | .notInAlphabet => "Only base64 data is allowed"
  | .brokenPadding => "Discontinuous padding not allowed"
  | .loneDigit digits =>
    s!"Invalid base64-encoded string: number of data characters ({digits}) cannot be 1 more " ++
      "than a multiple of 4"
  | .missingPadding => "Incorrect padding"

/-- A reader's state: the bytes read so far, last first; how many digits of the present group
there were and the bits left over from the last; how much padding there was since the last digit,
and whether there was any at all. -/
structure Reader where
  bytes : Bytes
  digits : Nat
  left : Nat
  pads : Nat
  padded : Bool

namespace Reader

/-- The state at the start of a text. -/
def start : Reader := ⟨[], 0, 0, 0, false⟩

/-- The state after one more digit. -/
def push (r : Reader) (v : Nat) : Reader :=
  let byte (n : Nat) : Bytes := UInt8.ofNat n :: r.bytes
  match r.digits with
  | 0 => ⟨r.bytes, 1, v, 0, r.padded⟩
  | 1 => ⟨byte (r.left * 4 + v / 16), 2, v % 16, 0, r.padded⟩
  | 2 => ⟨byte (r.left * 16 + v / 4), 3, v % 4, 0, r.padded⟩
  | _ => ⟨byte (r.left * 64 + v), 0, 0, 0, r.padded⟩

/-- The bytes read, at the end of a text: a group must be complete. -/
def finish (r : Reader) : Except Fault Bytes :=
  match r.digits with
  | 0 => .ok r.bytes.reverse
  | 1 => .error (.loneDigit (r.bytes.length / 3 * 4 + 1))
  | _ => .error .missingPadding

/-- The bytes of the rest of a text. Padding that completes a group ends the reading. -/
def run (strict : Bool) (r : Reader) : List Char → Except Fault Bytes
  | [] => r.finish
  | c :: rest =>
    if c = '=' then
      if 2 ≤ r.digits ∧ 4 ≤ r.digits + r.pads + 1 then
        if strict && !rest.isEmpty then .error .excessData else .ok r.bytes.reverse
      else
        let pads := if 2 ≤ r.digits then r.pads + 1 else r.pads
        run strict { r with pads := pads, padded := true } rest
    else
      match value? c with
      | none => if strict then .error .notInAlphabet else run strict r rest
      | some v =>
        if strict && r.padded then .error .brokenPadding else run strict (r.push v) rest

end Reader

/-- The byte string that a text writes. -/
def decode (strict : Bool) (s : String) : Except Fault Bytes :=
  let cs := s.toList
  if cs.any fun c => c.toNat ≥ 128 then .error .notAscii
  else if strict && cs.head? == some '=' then .error .leadingPadding
  else Reader.start.run strict cs

end FungibleLedger.Base64
