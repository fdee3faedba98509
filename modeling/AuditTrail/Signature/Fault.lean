import AuditTrail.Failure
import AuditTrail.Number.Numeral

/-!
# Faults of a proof

Everything that can be wrong with the proof of an entry, from its method id to the signature itself,
once the DID of the signer is resolved.
-/

namespace AuditTrail.Signature

/-- The parts of a compact signature. -/
inductive Segment
  | header
  | payload
  | signature
  deriving DecidableEq, Repr

/-- The name of a part. -/
def Segment.name : Segment → String
  | .header => "header"
  | .payload => "payload"
  | .signature => "signature"

/-- What is wrong with a proof. -/
inductive Fault
  /-- The method id has no DID before its first `#`, or nothing after it. -/
  | noFragment (methodId : String)
  | methodNotFound (methodId : String)
  | unsupportedType (methodId methodType : String)
  | noKey (methodId : String)
  | wrongCurve (methodId keyType curve : String)
  | keyNotBase64
  | keyLength (found : Nat)
  /-- Thirty-two octets that encode no point of the curve. -/
  | keyNotOnCurve
  | segmentCount (found : Nat)
  | emptySegment
  | segmentNotBase64 (segment : Segment)
  | headerNotJson
  | headerNotObject
  /-- The header names another algorithm, given as wire text. -/
  | algorithm (found : String)
  | payloadNotText
  | payloadMismatch (expected found : String)
  | signatureLength
  /-- The signature does not verify. -/
  | rejected
  deriving DecidableEq, Repr

namespace Fault

/-- The text of a fault. -/
def reason : Fault → String
  | .noFragment id => "verificationMethod '" ++ id ++ "' has no key fragment"
  | .methodNotFound id => "verification method " ++ id ++ " not found in DID document"
  | .unsupportedType id methodType =>
    "verification method " ++ id ++ " has unsupported type '" ++ methodType ++ "'"
  | .noKey id => "verification method " ++ id ++ " has no publicKeyJwk"
  | .wrongCurve id keyType curve =>
    "verification method " ++ id ++ " key must be OKP/Ed25519, found " ++ keyType ++ "/" ++ curve
  | .keyNotBase64 => "public key is not valid base64url: not strict unpadded text"
  | .keyLength found => "Ed25519 public key must be 32 bytes, found " ++ Number.decimal found
  | .keyNotOnCurve =>
    "invalid Ed25519 public key: signature error: Cannot decompress Edwards point"
  | .segmentCount found => "JWS must have 3 segments, found " ++ Number.decimal found
  | .emptySegment => "JWS has an empty segment"
  | .segmentNotBase64 segment =>
    "JWS " ++ segment.name ++ " is not valid base64url: not strict unpadded text"
  | .headerNotJson => "JWS header is not JSON: not a JSON text"
  | .headerNotObject => "JWS header is not a JSON object"
  | .algorithm found => "unsupported JWS algorithm " ++ found ++ ", expected \"EdDSA\""
  | .payloadNotText => "JWS payload is not UTF-8"
  | .payloadMismatch expected found =>
    "JWS payload does not match entry hash: expected " ++ expected ++ ", found " ++ found
  | .signatureLength => "malformed Ed25519 signature: signature error"
  | .rejected => "Ed25519 signature verification failed"

/-- A fault as the failure it causes. -/
def failure (f : Fault) : Failure := .signature f.reason

end Fault

end AuditTrail.Signature
