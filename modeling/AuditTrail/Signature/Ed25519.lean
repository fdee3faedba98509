import AuditTrail.Hash.Sha512
import AuditTrail.Signature.Scheme

/-!
# Ed25519

The signature scheme Ed25519 on the curve `y ^ 2 - x ^ 2 = 1 + d * x ^ 2 * y ^ 2` over the
residues modulo `2 ^ 255 - 19`. Points have extended coordinates, for which one formula adds any two
points.

A public key is any encoding of a point, also one of small order and one whose ordinate is not
reduced. A signature is good if its scalar is reduced and its point is, octet for octet, the one
that the equation without cofactor yields.
-/

namespace AuditTrail.Ed25519

/-- The greatest residue. -/
def lastResidue : Nat := Nat.pow 2 255 - 20

/-- The size of the field. -/
abbrev fieldSize : Nat := lastResidue + 1

/-- A residue modulo the size of the field. -/
abbrev Residue := Fin fieldSize

/-- The number of multiples of the base point. -/
def groupOrder : Nat := Nat.pow 2 252 + 27742317777372353535851937790883648493

namespace Residue

/-- The residue of a number. -/
def ofNat (n : Nat) : Residue := Fin.ofNat fieldSize n

/-- A power, by squaring; `bits` bounds the bits of the exponent. -/
def power (x : Residue) : (bits exponent : Nat) → Residue
  | 0, _ => 1
  | bits + 1, exponent =>
    let half := power (x * x) bits (exponent / 2)
    if exponent % 2 = 1 then half * x else half

/-- The inverse of a residue other than zero. -/
def inverse (x : Residue) : Residue := power x 255 (fieldSize - 2)

/-- Whether a residue counts as negative: it is odd. -/
def isNegative (x : Residue) : Bool := x.val % 2 == 1

/-- A square root of minus one. -/
def rootOfMinusOne : Residue := power 2 255 ((fieldSize - 1) / 4)

/-- The square root of `u / v` that is not negative, if there is one. -/
def rootOfQuotient? (u v : Residue) : Option Residue :=
  let v3 := v * v * v
  let candidate := u * v3 * power (u * v3 * v3 * v) 255 ((fieldSize - 5) / 8)
  let check := v * candidate * candidate
  let root? :=
    if check = u then some candidate
    else if check = -u then some (candidate * rootOfMinusOne)
    else none
  root?.map fun x => if isNegative x then -x else x

end Residue

/-- The constant of the curve. -/
def curveConstant : Residue := -Residue.ofNat 121665 * Residue.inverse (Residue.ofNat 121666)

/-- A point `(x / z, y / z)` with `t = x * y / z`. -/
structure Point where
  x : Residue
  y : Residue
  z : Residue
  t : Residue
  deriving DecidableEq

namespace Point

/-- The neutral point. -/
def neutral : Point := ⟨0, 1, 1, 0⟩

/-- The sum of two points. -/
def add (p q : Point) : Point :=
  let a := (p.y - p.x) * (q.y - q.x)
  let b := (p.y + p.x) * (q.y + q.x)
  let c := 2 * curveConstant * p.t * q.t
  let d := 2 * p.z * q.z
  let e := b - a
  let f := d - c
  let g := d + c
  let h := b + a
  ⟨e * f, g * h, f * g, e * h⟩

/-- The opposite point. -/
def negate (p : Point) : Point := ⟨-p.x, p.y, p.z, -p.t⟩

/-- A multiple of a point; `bits` bounds the bits of the factor. -/
def multiple : (bits factor : Nat) → Point → Point
  | 0, _, _ => neutral
  | bits + 1, factor, p =>
    let half := multiple bits (factor / 2) (p.add p)
    if factor % 2 = 1 then half.add p else half

/-- A multiple of a point by a factor below `2 ^ 256`. -/
def times (factor : Nat) (p : Point) : Point := multiple 256 factor p

/-- The encoding of a point: its ordinate, and in the highest bit whether its abscissa is negative. -/
def encode (p : Point) : Bytes :=
  let w := Residue.inverse p.z
  let x := p.x * w
  let y := p.y * w
  Bytes.ofLittleEndian 32 (y.val + if x.isNegative then Nat.pow 2 255 else 0)

/-- The point that 32 octets encode. The ordinate is taken modulo the size of the field. -/
def decode? (bytes : Bytes) : Option Point := do
  let n := Bytes.littleEndian bytes
  let y := Residue.ofNat (n % Nat.pow 2 255)
  let x ← Residue.rootOfQuotient? (y * y - 1) (curveConstant * y * y + 1)
  let x := if n / Nat.pow 2 255 = 1 then -x else x
  some ⟨x, y, 1, x * y⟩

/-- The base point. -/
def base : Point :=
  let y := Residue.ofNat 4 * Residue.inverse (Residue.ofNat 5)
  match Residue.rootOfQuotient? (y * y - 1) (curveConstant * y * y + 1) with
  | some x => ⟨x, y, 1, x * y⟩
  | none => neutral

end Point

/-- The hash of octets as a scalar. -/
def hashScalar (bytes : Bytes) : Nat := Bytes.littleEndian (Sha512.digest bytes) % groupOrder

/-- The scalar of a seed: the lower half of its hash, with the three lowest bits and the highest
one cleared and the second highest set. -/
def secretScalar (seed : Bytes) : Nat :=
  let n := Bytes.littleEndian ((Sha512.digest seed).take 32)
  (n % Nat.pow 2 254 / 8 * 8 + Nat.pow 2 254) % groupOrder

/-- The public key of a seed. -/
def publicKey (seed : Bytes) : Bytes := (Point.base.times (secretScalar seed)).encode

/-- Signs a message. -/
def sign (seed message : Bytes) : Bytes :=
  let r := hashScalar ((Sha512.digest seed).drop 32 ++ message)
  let point := (Point.base.times r).encode
  let k := hashScalar (point ++ publicKey seed ++ message)
  point ++ Bytes.ofLittleEndian 32 ((k * secretScalar seed + r) % groupOrder)

/-- Whether octets are a public key. -/
def admits (key : Bytes) : Bool := (Point.decode? key).isSome

/-- Whether a signature of a message is good under a key. -/
def verify (key message signature : Bytes) : Bool :=
  match Point.decode? key with
  | none => false
  | some a =>
    let point := signature.take 32
    let s := Bytes.littleEndian (signature.drop 32)
    let k := hashScalar (point ++ key ++ message)
    decide (s < groupOrder)
      && ((Point.base.times s).add (a.negate.times k)).encode == point

theorem length_ofLittleEndian (count n : Nat) : (Bytes.ofLittleEndian count n).length = count := by
  induction count generalizing n with
  | zero => rfl
  | succ count ih => simp [Bytes.ofLittleEndian, ih]

theorem length_publicKey (seed : Bytes) : (publicKey seed).length = 32 :=
  length_ofLittleEndian 32 _

theorem length_sign (seed message : Bytes) : (sign seed message).length = 64 := by
  simp [sign, Point.encode, length_ofLittleEndian]

/-- Ed25519 as a signature scheme. -/
def scheme : Signature.Scheme :=
  ⟨admits, verify, publicKey, sign, length_publicKey, length_sign⟩

end AuditTrail.Ed25519
