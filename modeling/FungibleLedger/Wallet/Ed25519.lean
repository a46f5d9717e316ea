import FungibleLedger.Wallet.Sha512

/-!
# Ed25519 public keys

The twisted Edwards curve `-x ^ 2 + y ^ 2 = 1 + d * x ^ 2 * y ^ 2` over the integers modulo
`2 ^ 255 - 19`, and the public key of a seed of 32 bytes.

* `Ed25519.Point.add`, `Ed25519.Point.mul` : the group of the curve.
* `Ed25519.publicKey` : the encoded multiple of the base point that a seed picks.
-/

namespace FungibleLedger.Ed25519

/-- The order of the field. -/
def p : Nat := Nat.pow 2 255 - 19

/-- The difference of two residues. -/
def sub (a b : Nat) : Nat := (a + (p - b % p)) % p

/-- The low bits of a number, the highest of them first. -/
def bits (count n : Nat) : List Bool :=
  (List.range count).reverse.map n.testBit

/-- A power of a residue. -/
def pow (base exponent : Nat) : Nat :=
  (bits 256 exponent).foldl
    (fun acc bit => if bit then acc * acc % p * base % p else acc * acc % p) 1

/-- The inverse of a residue that is not zero. -/
def inv (a : Nat) : Nat := pow a (p - 2)

/-- The constant of the curve. -/
def d : Nat := sub 0 (121665 * inv 121666 % p)

/-- A point in extended coordinates: `(x / z, y / z)` with `t = x * y / z`. -/
structure Point where
  x : Nat
  y : Nat
  z : Nat
  t : Nat

namespace Point

/-- The neutral point. -/
def zero : Point := ⟨0, 1, 1, 0⟩

/-- The base point. -/
def base : Point :=
  let x := 15112221349535400772501151409588531511454012693041857206046113283949847762202
  let y := 46316835694926478169428394003475163141307993866256225615783033603165251855960
  ⟨x, y, 1, x * y % p⟩

/-- The sum of two points; the formulas hold for equal ones too. -/
def add (m n : Point) : Point :=
  let a := sub m.y m.x * sub n.y n.x % p
  let b := (m.y + m.x) * (n.y + n.x) % p
  let c := m.t * 2 * d % p * n.t % p
  let e := m.z * 2 * n.z % p
  let f := sub b a
  let g := sub e c
  let h := (e + c) % p
  let k := (b + a) % p
  ⟨f * g % p, h * k % p, g * h % p, f * k % p⟩

/-- A multiple of a point. -/
def mul (n : Nat) (m : Point) : Point :=
  (bits 256 n).foldl (fun acc bit => if bit then (acc.add acc).add m else acc.add acc) zero

/-- The encoding of a point: `y` in 32 bytes, lowest first, with the parity of `x` on top. -/
def encode (m : Point) : Bytes :=
  let w := inv m.z
  let x := m.x * w % p
  let y := m.y * w % p
  (Bytes.ofNat 32 (y + x % 2 * Nat.pow 2 255)).reverse

end Point

/-- The number by which a seed multiplies the base point: the first half of its hash, lowest byte
first, with the three lowest bits and the highest cleared and the second highest set. -/
def scalar (seed : Bytes) : Nat :=
  let n := Bytes.toNat ((Sha512.hash seed).take 32).reverse
  n % Nat.pow 2 254 / 8 * 8 + Nat.pow 2 254

/-- The public key of a seed, 32 bytes. -/
def publicKey (seed : Bytes) : Bytes :=
  (Point.base.mul (scalar seed)).encode

theorem length_publicKey (seed : Bytes) : (publicKey seed).length = 32 := by
  simp [publicKey, Point.encode, Bytes.length_ofNat]

end FungibleLedger.Ed25519
