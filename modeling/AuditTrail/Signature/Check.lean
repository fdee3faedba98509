import AuditTrail.Log.Commitment
import AuditTrail.Report
import AuditTrail.Signature.Jws
import AuditTrail.Signature.Key

/-!
# Checking the proofs of a log

The proof of an entry names a method of a DID document. The proof holds if the document has that
method with a usable key, the payload of the compact signature is the hash of the entry, and the
signature is good under the key. Where the document comes from is left open: resolving a DID is an
argument, in any monad.
-/

namespace AuditTrail.Signature

/-- The DID of a method id: what stands before the first `#`, with something on both sides. -/
def didOf (methodId : String) : Except Fault String :=
  match Text.cutAt? '#' methodId.toList with
  | some (did, fragment) =>
    if did.isEmpty || fragment.isEmpty then .error (.noFragment methodId)
    else .ok (String.ofList did)
  | none => .error (.noFragment methodId)

/-- Checks the compact signature of an entry under a key. -/
def checkJws (scheme : Scheme) (key : Bytes) (e : Entry) : Except Fault Unit := do
  let jws ← Jws.parse e.proof.jws
  jws.checkHeader
  let payload ← jws.payloadText
  if payload ≠ e.hash then .error (.payloadMismatch e.hash payload)
  else
    let signature ← jws.signatureOctets
    if signature.length ≠ 64 then .error .signatureLength
    else if scheme.verify key (Bytes.ofString jws.signingInput) signature then .ok ()
    else .error .rejected

/-- Checks the proof of an entry against the document of its signer. -/
def checkProof (scheme : Scheme) (document : DidDocument) (e : Entry) : Except Fault Unit :=
  match document.findMethod? e.proof.verificationMethod with
  | none => .error (.methodNotFound e.proof.verificationMethod)
  | some method => do checkJws scheme (← publicKeyOf scheme method) e

/-- A way to find the document of a DID. -/
abbrev Resolver (m : Type → Type) := (did : String) → m (Except Failure DidDocument)

section

variable {m : Type → Type} [Monad m]

/-- Checks the proof of an entry; a DID that cannot be resolved is a failure of its own kind. -/
def checkEntry (scheme : Scheme) (resolve : Resolver m) (e : Entry) : m (Except Failure Unit) :=
  match didOf e.proof.verificationMethod with
  | .error fault => pure (.error fault.failure)
  | .ok did => do
    match ← resolve did with
    | .error f => pure (.error f)
    | .ok document => pure ((checkProof scheme document e).mapError Fault.failure)

/-- The text of a failure in a finding: the faults of a proof read as a sentence of their own. -/
def describe : Failure → String
  | .signature reason => reason
  | other => other.message

/-- The finding on entry number `index`. -/
def proofFinding (index : Nat) (e : Entry) (f : Failure) : Finding :=
  ⟨.signature, "entry " ++ Number.decimal index ++ " (" ++ e.id ++ "): " ++ describe f⟩

/-- The findings on the proofs of entries that are numbered from `index` on. With `failFast` the
first one ends the check. -/
def proofFindingsFrom (scheme : Scheme) (resolve : Resolver m) (failFast : Bool) (index : Nat) :
    List Entry → m (List Finding)
  | [] => pure []
  | e :: rest => do
    match ← checkEntry scheme resolve e with
    | .ok () => proofFindingsFrom scheme resolve failFast (index + 1) rest
    | .error f =>
      if failFast then pure [proofFinding index e f]
      else
        let more ← proofFindingsFrom scheme resolve failFast (index + 1) rest
        pure (proofFinding index e f :: more)

/-- The findings on the proofs of a log's entries. -/
def proofFindings (scheme : Scheme) (resolve : Resolver m) (failFast : Bool)
    (entries : List Entry) : m (List Finding) :=
  proofFindingsFrom scheme resolve failFast 0 entries

end

end AuditTrail.Signature
