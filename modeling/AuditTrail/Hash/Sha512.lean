import AuditTrail.Text.Bytes

/-!
# SHA-512

The digest inside Ed25519 signatures (FIPS 180-4, on 64-bit words and blocks of 128 octets).
-/

namespace AuditTrail.Sha512

/-- The first 64 bits of the fractional parts of the cube roots of the first 80 primes. -/
def roundConstants : List UInt64 :=
  [0x428a2f98d728ae22, 0x7137449123ef65cd, 0xb5c0fbcfec4d3b2f, 0xe9b5dba58189dbbc,
   0x3956c25bf348b538, 0x59f111f1b605d019, 0x923f82a4af194f9b, 0xab1c5ed5da6d8118,
   0xd807aa98a3030242, 0x12835b0145706fbe, 0x243185be4ee4b28c, 0x550c7dc3d5ffb4e2,
   0x72be5d74f27b896f, 0x80deb1fe3b1696b1, 0x9bdc06a725c71235, 0xc19bf174cf692694,
   0xe49b69c19ef14ad2, 0xefbe4786384f25e3, 0x0fc19dc68b8cd5b5, 0x240ca1cc77ac9c65,
   0x2de92c6f592b0275, 0x4a7484aa6ea6e483, 0x5cb0a9dcbd41fbd4, 0x76f988da831153b5,
   0x983e5152ee66dfab, 0xa831c66d2db43210, 0xb00327c898fb213f, 0xbf597fc7beef0ee4,
   0xc6e00bf33da88fc2, 0xd5a79147930aa725, 0x06ca6351e003826f, 0x142929670a0e6e70,
   0x27b70a8546d22ffc, 0x2e1b21385c26c926, 0x4d2c6dfc5ac42aed, 0x53380d139d95b3df,
   0x650a73548baf63de, 0x766a0abb3c77b2a8, 0x81c2c92e47edaee6, 0x92722c851482353b,
   0xa2bfe8a14cf10364, 0xa81a664bbc423001, 0xc24b8b70d0f89791, 0xc76c51a30654be30,
   0xd192e819d6ef5218, 0xd69906245565a910, 0xf40e35855771202a, 0x106aa07032bbd1b8,
   0x19a4c116b8d2d0c8, 0x1e376c085141ab53, 0x2748774cdf8eeb99, 0x34b0bcb5e19b48a8,
   0x391c0cb3c5c95a63, 0x4ed8aa4ae3418acb, 0x5b9cca4f7763e373, 0x682e6ff3d6b2b8a3,
   0x748f82ee5defb2fc, 0x78a5636f43172f60, 0x84c87814a1f0ab72, 0x8cc702081a6439ec,
   0x90befffa23631e28, 0xa4506cebde82bde9, 0xbef9a3f7b2c67915, 0xc67178f2e372532b,
   0xca273eceea26619c, 0xd186b8c721c0c207, 0xeada7dd6cde0eb1e, 0xf57d4f7fee6ed178,
   0x06f067aa72176fba, 0x0a637dc5a2c898a6, 0x113f9804bef90dae, 0x1b710b35131c471b,
   0x28db77f523047d84, 0x32caab7b40c72493, 0x3c9ebe0a15c9bebc, 0x431d67c49c100d4c,
   0x4cc5d4becb3e42b6, 0x597f299cfc657e2a, 0x5fcb6fab3ad6faec, 0x6c44198c4a475817]

/-- The eight words that the rounds work on. -/
structure State where
  a : UInt64
  b : UInt64
  c : UInt64
  d : UInt64
  e : UInt64
  f : UInt64
  g : UInt64
  h : UInt64
  deriving DecidableEq

/-- The first 64 bits of the fractional parts of the square roots of the first eight primes. -/
def State.first : State :=
  ⟨0x6a09e667f3bcc908, 0xbb67ae8584caa73b, 0x3c6ef372fe94f82b, 0xa54ff53a5f1d36f1,
   0x510e527fade682d1, 0x9b05688c2b3e6c1f, 0x1f83d9abfb41bd6b, 0x5be0cd19137e2179⟩

/-- The words of two states added up. -/
def State.add (x y : State) : State :=
  ⟨x.a + y.a, x.b + y.b, x.c + y.c, x.d + y.d, x.e + y.e, x.f + y.f, x.g + y.g, x.h + y.h⟩

/-- The words of a state, in order. -/
def State.words (x : State) : List UInt64 := [x.a, x.b, x.c, x.d, x.e, x.f, x.g, x.h]

/-- Rotation of a word to the right, by more than zero and fewer than 64 bits. -/
def rotate (x : UInt64) (n : UInt64) : UInt64 := (x >>> n) ||| (x <<< (64 - n))

/-- One round with a round constant and a word of the schedule. -/
def State.round (x : State) (k w : UInt64) : State :=
  let s1 := rotate x.e 14 ^^^ rotate x.e 18 ^^^ rotate x.e 41
  let choice := (x.e &&& x.f) ^^^ (~~~x.e &&& x.g)
  let t1 := x.h + s1 + choice + k + w
  let s0 := rotate x.a 28 ^^^ rotate x.a 34 ^^^ rotate x.a 39
  let majority := (x.a &&& x.b) ^^^ (x.a &&& x.c) ^^^ (x.b &&& x.c)
  ⟨t1 + s0 + majority, x.a, x.b, x.c, x.d + t1, x.e, x.f, x.g⟩

/-- The word of the schedule that comes after sixteen given ones. -/
def nextWord (window : List UInt64) : UInt64 :=
  let w1 := window.getD 1 0
  let w14 := window.getD 14 0
  let s0 := rotate w1 1 ^^^ rotate w1 8 ^^^ (w1 >>> 7)
  let s1 := rotate w14 19 ^^^ rotate w14 61 ^^^ (w14 >>> 6)
  window.getD 0 0 + s0 + window.getD 9 0 + s1

/-- The rounds for the remaining constants; the window holds the next sixteen words of the
schedule. -/
def rounds : List UInt64 → (window : List UInt64) → State → State
  | [], _, x => x
  | k :: ks, window, x =>
    rounds ks (window.drop 1 ++ [nextWord window]) (x.round k (window.getD 0 0))

/-- The word that 8 octets write, most significant octet first. -/
def wordOf (octets : Bytes) : UInt64 :=
  octets.foldl (fun w b => (w <<< 8) ||| UInt64.ofNat b.toNat) 0

/-- The words of a block. -/
def blockWords : (count : Nat) → Bytes → List UInt64
  | 0, _ => []
  | count + 1, octets => wordOf (octets.take 8) :: blockWords count (octets.drop 8)

/-- Works one block of 128 octets into a state. -/
def State.absorb (x : State) (block : Bytes) : State :=
  x.add (rounds roundConstants (blockWords 16 block) x)

/-- Works the given number of blocks into a state. -/
def absorbBlocks : (count : Nat) → Bytes → State → State
  | 0, _, x => x
  | count + 1, octets, x => absorbBlocks count (octets.drop 128) (x.absorb (octets.take 128))

/-- A message followed by a one bit, zeros up to a whole number of blocks, and its length in bits
in the last 16 octets. -/
def padded (message : Bytes) : Bytes :=
  let used := (message.length + 1 + 16) % 128
  message ++ 0x80 :: (List.replicate ((128 - used) % 128) 0
    ++ Bytes.ofBigEndian 16 (8 * message.length))

/-- The digest of a message. -/
def digest (message : Bytes) : Bytes :=
  let octets := padded message
  (absorbBlocks (octets.length / 128) octets State.first).words.flatMap fun w =>
    Bytes.ofBigEndian 8 w.toNat

end AuditTrail.Sha512
