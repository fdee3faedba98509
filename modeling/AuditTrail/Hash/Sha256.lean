import AuditTrail.Text.Bytes

/-!
# SHA-256

The digest that links the entries of an audit log (FIPS 180-4, on 32-bit words and blocks of 64
octets).
-/

namespace AuditTrail.Sha256

/-- The first 32 bits of the fractional parts of the cube roots of the first 64 primes. -/
def roundConstants : List UInt32 :=
  [0x428a2f98, 0x71374491, 0xb5c0fbcf, 0xe9b5dba5, 0x3956c25b, 0x59f111f1,
   0x923f82a4, 0xab1c5ed5, 0xd807aa98, 0x12835b01, 0x243185be, 0x550c7dc3,
   0x72be5d74, 0x80deb1fe, 0x9bdc06a7, 0xc19bf174, 0xe49b69c1, 0xefbe4786,
   0x0fc19dc6, 0x240ca1cc, 0x2de92c6f, 0x4a7484aa, 0x5cb0a9dc, 0x76f988da,
   0x983e5152, 0xa831c66d, 0xb00327c8, 0xbf597fc7, 0xc6e00bf3, 0xd5a79147,
   0x06ca6351, 0x14292967, 0x27b70a85, 0x2e1b2138, 0x4d2c6dfc, 0x53380d13,
   0x650a7354, 0x766a0abb, 0x81c2c92e, 0x92722c85, 0xa2bfe8a1, 0xa81a664b,
   0xc24b8b70, 0xc76c51a3, 0xd192e819, 0xd6990624, 0xf40e3585, 0x106aa070,
   0x19a4c116, 0x1e376c08, 0x2748774c, 0x34b0bcb5, 0x391c0cb3, 0x4ed8aa4a,
   0x5b9cca4f, 0x682e6ff3, 0x748f82ee, 0x78a5636f, 0x84c87814, 0x8cc70208,
   0x90befffa, 0xa4506ceb, 0xbef9a3f7, 0xc67178f2]

/-- The eight words that the rounds work on. -/
structure State where
  a : UInt32
  b : UInt32
  c : UInt32
  d : UInt32
  e : UInt32
  f : UInt32
  g : UInt32
  h : UInt32
  deriving DecidableEq

/-- The first 32 bits of the fractional parts of the square roots of the first eight primes. -/
def State.first : State :=
  ⟨0x6a09e667, 0xbb67ae85, 0x3c6ef372, 0xa54ff53a,
   0x510e527f, 0x9b05688c, 0x1f83d9ab, 0x5be0cd19⟩

/-- The words of two states added up. -/
def State.add (x y : State) : State :=
  ⟨x.a + y.a, x.b + y.b, x.c + y.c, x.d + y.d, x.e + y.e, x.f + y.f, x.g + y.g, x.h + y.h⟩

/-- The words of a state, in order. -/
def State.words (x : State) : List UInt32 := [x.a, x.b, x.c, x.d, x.e, x.f, x.g, x.h]

/-- Rotation of a word to the right, by more than zero and fewer than 32 bits. -/
def rotate (x : UInt32) (n : UInt32) : UInt32 := (x >>> n) ||| (x <<< (32 - n))

/-- One round with a round constant and a word of the schedule. -/
def State.round (x : State) (k w : UInt32) : State :=
  let s1 := rotate x.e 6 ^^^ rotate x.e 11 ^^^ rotate x.e 25
  let choice := (x.e &&& x.f) ^^^ (~~~x.e &&& x.g)
  let t1 := x.h + s1 + choice + k + w
  let s0 := rotate x.a 2 ^^^ rotate x.a 13 ^^^ rotate x.a 22
  let majority := (x.a &&& x.b) ^^^ (x.a &&& x.c) ^^^ (x.b &&& x.c)
  ⟨t1 + s0 + majority, x.a, x.b, x.c, x.d + t1, x.e, x.f, x.g⟩

/-- The word of the schedule that comes after sixteen given ones. -/
def nextWord (window : List UInt32) : UInt32 :=
  let w1 := window.getD 1 0
  let w14 := window.getD 14 0
  let s0 := rotate w1 7 ^^^ rotate w1 18 ^^^ (w1 >>> 3)
  let s1 := rotate w14 17 ^^^ rotate w14 19 ^^^ (w14 >>> 10)
  window.getD 0 0 + s0 + window.getD 9 0 + s1

/-- The rounds for the remaining constants; the window holds the next sixteen words of the
schedule. -/
def rounds : List UInt32 → (window : List UInt32) → State → State
  | [], _, x => x
  | k :: ks, window, x =>
    rounds ks (window.drop 1 ++ [nextWord window]) (x.round k (window.getD 0 0))

/-- The word that 4 octets write, most significant octet first. -/
def wordOf (octets : Bytes) : UInt32 :=
  octets.foldl (fun w b => (w <<< 8) ||| UInt32.ofNat b.toNat) 0

/-- The words of a block. -/
def blockWords : (count : Nat) → Bytes → List UInt32
  | 0, _ => []
  | count + 1, octets => wordOf (octets.take 4) :: blockWords count (octets.drop 4)

/-- Works one block of 64 octets into a state. -/
def State.absorb (x : State) (block : Bytes) : State :=
  x.add (rounds roundConstants (blockWords 16 block) x)

/-- Works the given number of blocks into a state. -/
def absorbBlocks : (count : Nat) → Bytes → State → State
  | 0, _, x => x
  | count + 1, octets, x => absorbBlocks count (octets.drop 64) (x.absorb (octets.take 64))

/-- A message followed by a one bit, zeros up to a whole number of blocks, and its length in bits
in the last 8 octets. -/
def padded (message : Bytes) : Bytes :=
  let used := (message.length + 1 + 8) % 64
  message ++ 0x80 :: (List.replicate ((64 - used) % 64) 0
    ++ Bytes.ofBigEndian 8 (8 * message.length))

/-- The digest of a message. -/
def digest (message : Bytes) : Bytes :=
  let octets := padded message
  (absorbBlocks (octets.length / 64) octets State.first).words.flatMap fun w =>
    Bytes.ofBigEndian 4 w.toNat

end AuditTrail.Sha256
