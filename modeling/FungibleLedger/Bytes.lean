/-!
# Byte strings

Keys, values and encodings are byte strings. Big-endian numbers of a fixed width, and the UTF-8
form of text, are the two encodings that the rest of the library builds on.

* `Bytes.ofNat width n` : the low `width` bytes of `n`, most significant first.
* `Bytes.toNat bs` : the number that `bs` writes in base 256.
* `utf8 s` : the UTF-8 form of `s`.
-/

namespace FungibleLedger

/-- A byte string. -/
abbrev Bytes := List UInt8

namespace Bytes

/-- The number that a byte string writes, most significant byte first. -/
def toNat (bytes : Bytes) : Nat :=
  bytes.foldl (fun n b => n * 256 + b.toNat) 0

/-- The low `width` bytes of a number, most significant first. -/
def ofNat : (width : Nat) → (n : Nat) → Bytes
  | 0, _ => []
  | width + 1, n => ofNat width (n / 256) ++ [UInt8.ofNat (n % 256)]

theorem length_ofNat (width n : Nat) : (ofNat width n).length = width := by
  induction width generalizing n with
  | zero => rfl
  | succ width ih => simp [ofNat, ih]

end Bytes

/-- The UTF-8 form of a text. -/
def utf8 (s : String) : Bytes :=
  s.toUTF8.data.toList

end FungibleLedger
