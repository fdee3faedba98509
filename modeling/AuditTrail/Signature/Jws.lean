import AuditTrail.Json.Wire
import AuditTrail.Signature.Fault
import AuditTrail.Text.Base64Url

/-!
# Compact signatures

A compact signature is three base64url segments with points between them: a JSON header, a payload
and the signature of the first two segments as they stand.
-/

namespace AuditTrail.Signature

/-- A compact signature cut into its segments, none of them empty. -/
structure Jws where
  header : List Char
  payload : List Char
  signature : List Char
  deriving DecidableEq

namespace Jws

/-- The one algorithm that proofs are signed with. -/
def algorithm : String := "EdDSA"

/-- Cuts a text into the segments of a compact signature. -/
def parse (text : String) : Except Fault Jws :=
  let segments := Text.piecesAt '.' text.toList
  match segments with
  | [header, payload, signature] =>
    if header.isEmpty || payload.isEmpty || signature.isEmpty then .error .emptySegment
    else .ok ⟨header, payload, signature⟩
  | _ => .error (.segmentCount segments.length)

/-- The text that the signature covers. -/
def signingInput (j : Jws) : String := String.ofList (j.header ++ '.' :: j.payload)

/-- The octets of a segment. -/
def octets (segment : Segment) (text : List Char) : Except Fault Bytes :=
  match Base64Url.decode? text with
  | some bytes => .ok bytes
  | none => .error (.segmentNotBase64 segment)

/-- Checks the header: a JSON object that names the algorithm or none. -/
def checkHeader (j : Jws) : Except Fault Unit := do
  let bytes ← octets .header j.header
  match (Bytes.toString? bytes).bind Json.read? with
  | none => .error .headerNotJson
  | some (.object members) =>
    match ByName.find? "alg" members with
    | none => .ok ()
    | some found =>
      match found with
      | .string name => if name = algorithm then .ok () else .error (.algorithm found.wire)
      | _ => .error (.algorithm found.wire)
  | some _ => .error .headerNotObject

/-- The payload as text. -/
def payloadText (j : Jws) : Except Fault String := do
  match Bytes.toString? (← octets .payload j.payload) with
  | some text => .ok text
  | none => .error .payloadNotText

/-- The octets of the signature. -/
def signatureOctets (j : Jws) : Except Fault Bytes := octets .signature j.signature

/-- The text of a compact signature. -/
def text (j : Jws) : String :=
  String.ofList (j.header ++ '.' :: (j.payload ++ '.' :: j.signature))

end Jws

end AuditTrail.Signature
