import AuditTrail.Did.Document
import AuditTrail.Log.Commitment
import AuditTrail.Signature.Jws
import AuditTrail.Signature.Scheme

/-!
# Signing entries

A signer holds the seed of a key and the DID under which the key is published. It signs an entry the
way a protocol runtime does: the payload of the compact signature is the hash of the entry.
-/

namespace AuditTrail

open Signature (Scheme Jws)

/-- A signer of audit entries. -/
structure Signer where
  seed : Bytes
  did : String
  /-- The name of the key in the document of the DID. -/
  keyId : String
  deriving DecidableEq

namespace Signer

/-- The signer of the logs in examples. -/
def issuer : Signer := ⟨List.replicate 32 7, "did:web:example.com", "key-1"⟩

/-- The id of the signer's verification method. -/
def methodId (s : Signer) : String := s.did ++ "#" ++ s.keyId

/-- The public key as base64url text. -/
def publicKeyText (scheme : Scheme) (s : Signer) : String :=
  String.ofList (Base64Url.encode (scheme.publicKey s.seed))

/-- The document that publishes the key. -/
def document (scheme : Scheme) (s : Signer) : DidDocument :=
  ⟨s.did, [⟨s.methodId, "JsonWebKey2020", s.did, some ⟨"OKP", "Ed25519", s.publicKeyText scheme⟩⟩]⟩

/-- The header of every signature: an object that names the algorithm. -/
def header : Json := .ofMembers [("alg", .string Jws.algorithm)]

/-- The compact signature of a payload. -/
def signPayload (scheme : Scheme) (s : Signer) (payload : String) : Jws :=
  let head := Base64Url.encode (Bytes.ofString header.wire)
  let body := Base64Url.encode (Bytes.ofString payload)
  let input := Jws.signingInput ⟨head, body, []⟩
  ⟨head, body, Base64Url.encode (scheme.sign s.seed (Bytes.ofString input))⟩

/-- An entry with a fresh proof. -/
def signEntry (scheme : Scheme) (s : Signer) (e : Entry) : Entry :=
  { e with
    proof := ⟨"JsonWebSignature2020", e.timestamp, s.methodId, "assertionMethod",
      (s.signPayload scheme e.hash).text⟩ }

end Signer

end AuditTrail
