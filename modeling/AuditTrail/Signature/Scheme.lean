import AuditTrail.Text.Bytes

/-!
# Signature schemes

What the rest of the library knows about a signature scheme: which octets are keys, when a
signature of a message is good, and how a seed yields a key and signs. Verification and signing
take the scheme as an argument, so that nothing about audit logs depends on the curve underneath.

`Scheme.Agrees` is the one property that ties the two halves together.
-/

namespace AuditTrail.Signature

/-- A signature scheme with keys of 32 octets and signatures of 64. -/
structure Scheme where
  /-- Whether 32 octets are a public key. -/
  admits : (key : Bytes) → Bool
  /-- Whether 64 octets are a signature of a message under a key. -/
  verify : (key message signature : Bytes) → Bool
  /-- The public key of a seed. -/
  publicKey : (seed : Bytes) → Bytes
  /-- The signature that a seed makes of a message. -/
  sign : (seed message : Bytes) → Bytes
  length_publicKey : ∀ seed, (publicKey seed).length = 32
  length_sign : ∀ seed message, (sign seed message).length = 64

/-- The public key of a seed is one, and every signature made with the seed is good under it. -/
def Scheme.Agrees (scheme : Scheme) (seed : Bytes) : Prop :=
  scheme.admits (scheme.publicKey seed) = true
    ∧ ∀ message, scheme.verify (scheme.publicKey seed) message (scheme.sign seed message) = true

end AuditTrail.Signature
