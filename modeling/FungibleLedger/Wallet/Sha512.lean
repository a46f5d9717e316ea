import FungibleLedger.Bytes

/-!
# SHA-512

The hash function SHA-512 on byte strings, with words of 64 bits whose addition wraps around.

* `Sha512.pad` : a message with its padding and length, a multiple of 128 bytes long.
* `Sha512.compress` : the state after one block.
* `Sha512.hash` : the hash of a message.
-/

namespace FungibleLedger.Sha512

/-- The first 64 bits after the point of the cube roots of the first eighty primes. -/
def roundConstants : List UInt64 :=
  [0x428a2f98d728ae22, 0x7137449123ef65cd, 0xb5c0fbcfec4d3b2f, 0xe9b5dba58189dbbc,
   0x3956c25bf348b538, 0x59f111f1b605d019, 0x923f82a4af194f9b, 0xab1c5ed5da6d8118,
   0xd807aa98a3030242, 0x12835b0145706fbe, 0x243185be4ee4b28c, 0x550c7dc3d5ffb4e2,
   0x72be5d74f27b896f, 0x80deb1fe3b1696b1, 0x9bdc06a725c71235, 0xc19bf174cf692694,
   0xe49b69c19ef14ad2, 0xefbe4786384f25e3, 0x0fc19dc68b8cd5b5, 0x240ca1cc77ac9c65,
   0x2de92c6f592b0275, 0x4a7484aa6ea6e483, 0x5cb0a9dcbd41fbd4, 0x76f988da831153b5,
   0x983e5152ee66dfab, 0xa831c66d2db43210, 0xb00327c898fb213f, 0xbf597fc7beef0ee4,
   0xc6e00bf33da88fc2, 0xd5a79147930aa725, 0x06ca6351e003826f, 0x142929670a0e6e70,
   0x27b70a8546d22ffc, 0x2e1b21385c26c926, 0x4d2c6dfc5ac42aed, 0x53380d139d95b3df,
   0x650a73548baf63de, 0x766a0abb3c77b2a8, 0x81c2c92e47edaee6, 0x92722c851482353b,
   0xa2bfe8a14cf10364, 0xa81a664bbc423001, 0xc24b8b70d0f89791, 0xc76c51a30654be30,
   0xd192e819d6ef5218, 0xd69906245565a910, 0xf40e35855771202a, 0x106aa07032bbd1b8,
   0x19a4c116b8d2d0c8, 0x1e376c085141ab53, 0x2748774cdf8eeb99, 0x34b0bcb5e19b48a8,
   0x391c0cb3c5c95a63, 0x4ed8aa4ae3418acb, 0x5b9cca4f7763e373, 0x682e6ff3d6b2b8a3,
   0x748f82ee5defb2fc, 0x78a5636f43172f60, 0x84c87814a1f0ab72, 0x8cc702081a6439ec,
   0x90befffa23631e28, 0xa4506cebde82bde9, 0xbef9a3f7b2c67915, 0xc67178f2e372532b,
   0xca273eceea26619c, 0xd186b8c721c0c207, 0xeada7dd6cde0eb1e, 0xf57d4f7fee6ed178,
   0x06f067aa72176fba, 0x0a637dc5a2c898a6, 0x113f9804bef90dae, 0x1b710b35131c471b,
   0x28db77f523047d84, 0x32caab7b40c72493, 0x3c9ebe0a15c9bebc, 0x431d67c49c100d4c,
   0x4cc5d4becb3e42b6, 0x597f299cfc657e2a, 0x5fcb6fab3ad6faec, 0x6c44198c4a475817]

/-- The eight words of a state. -/
structure State where
  a : UInt64
  b : UInt64
  c : UInt64
  d : UInt64
  e : UInt64
  f : UInt64
  g : UInt64
  h : UInt64

/-- The first 64 bits after the point of the square roots of the first eight primes. -/
def State.start : State where
  a := 0x6a09e667f3bcc908
  b := 0xbb67ae8584caa73b
  c := 0x3c6ef372fe94f82b
  d := 0xa54ff53a5f1d36f1
  e := 0x510e527fade682d1
  f := 0x9b05688c2b3e6c1f
  g := 0x1f83d9abfb41bd6b
  h := 0x5be0cd19137e2179

/-- The word-wise sum of two states. -/
def State.add (s t : State) : State :=
  ⟨s.a + t.a, s.b + t.b, s.c + t.c, s.d + t.d, s.e + t.e, s.f + t.f, s.g + t.g, s.h + t.h⟩

/-- The words of a state. -/
def State.words (s : State) : List UInt64 :=
  [s.a, s.b, s.c, s.d, s.e, s.f, s.g, s.h]

/-- A word turned to the right. -/
def turn (x n : UInt64) : UInt64 := (x >>> n) ||| (x <<< (64 - n))

/-- One round with a round constant and a word of the message. -/
def round (s : State) (constant word : UInt64) : State :=
  let sum1 := turn s.e 14 ^^^ turn s.e 18 ^^^ turn s.e 41
  let choice := (s.e &&& s.f) ^^^ ((~~~ s.e) &&& s.g)
  let t1 := s.h + sum1 + choice + constant + word
  let sum0 := turn s.a 28 ^^^ turn s.a 34 ^^^ turn s.a 39
  let majority := (s.a &&& s.b) ^^^ (s.a &&& s.c) ^^^ (s.b &&& s.c)
  ⟨t1 + sum0 + majority, s.a, s.b, s.c, s.d + t1, s.e, s.f, s.g⟩

/-- The next sixteen words of the message schedule, one later. -/
def slide (window : List UInt64) : List UInt64 :=
  let word (i : Nat) : UInt64 := window.getD i 0
  let early := turn (word 1) 1 ^^^ turn (word 1) 8 ^^^ (word 1 >>> 7)
  let late := turn (word 14) 19 ^^^ turn (word 14) 61 ^^^ (word 14 >>> 6)
  window.tail ++ [word 0 + early + word 9 + late]

/-- The state after one block of sixteen words. -/
def compress (s : State) (block : List UInt64) : State :=
  let (final, _) := roundConstants.foldl
    (fun (t, window) constant => (round t constant (window.headD 0), slide window)) (s, block)
  s.add final

/-- A message with its padding and its length in bits. -/
def pad (message : Bytes) : Bytes :=
  let zeros := (239 - message.length % 128) % 128
  message ++ 0x80 :: List.replicate zeros 0 ++ Bytes.ofNat 16 (8 * message.length)

/-- A byte string cut into pieces of a length, of which there are at most `count`. -/
def pieces (length : Nat) : (count : Nat) → Bytes → List Bytes
  | 0, _ => []
  | count + 1, bytes =>
    if bytes.isEmpty then [] else bytes.take length :: pieces length count (bytes.drop length)

/-- The words of a byte string. -/
def wordsOf (bytes : Bytes) : List UInt64 :=
  (pieces 8 bytes.length bytes).map fun piece => UInt64.ofNat piece.toNat

/-- The hash of a message, 64 bytes. -/
def hash (message : Bytes) : Bytes :=
  let padded := pad message
  let final := (pieces 128 padded.length padded).foldl (fun s block => compress s (wordsOf block))
    .start
  final.words.flatMap fun word => Bytes.ofNat 8 word.toNat

end FungibleLedger.Sha512
