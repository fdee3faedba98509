import AuditTrail.Did.Document
import AuditTrail.Signature.Fault
import AuditTrail.Signature.Scheme
import AuditTrail.Text.Base64Url

/-!
# Keys of verification methods

How the public key of a verification method is found: the type of the method, the type and curve of
its key, the base64url text of thirty-two octets, and last whether the scheme takes these for a key.
-/

namespace AuditTrail.Signature

/-- The types of methods that can hold a key for signatures. -/
def supportedTypes : List String := ["Ed25519VerificationKey2020", "JsonWebKey2020"]

/-- The public key of a method. -/
def publicKeyOf (scheme : Scheme) (method : VerificationMethod) : Except Fault Bytes :=
  if !supportedTypes.contains method.methodType then
    .error (.unsupportedType method.id method.methodType)
  else
    match method.jwk with
    | none => .error (.noKey method.id)
    | some jwk =>
      if jwk.keyType ≠ "OKP" ∨ jwk.curve ≠ "Ed25519" then
        .error (.wrongCurve method.id jwk.keyType jwk.curve)
      else
        match Base64Url.decode? jwk.x.toList with
        | none => .error .keyNotBase64
        | some key =>
          if key.length ≠ 32 then .error (.keyLength key.length)
          else if scheme.admits key then .ok key
          else .error .keyNotOnCurve

end AuditTrail.Signature
