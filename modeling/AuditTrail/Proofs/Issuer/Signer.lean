import AuditTrail.Issuer.Signer
import AuditTrail.Proofs.Json.Wire
import AuditTrail.Proofs.Signature.Attested
import AuditTrail.Proofs.Text.Base64Url

/-!
# Signed entries are attested

What a signer writes into a proof is what the check asks for: the three segments are base64url text, so
they are cut again at the same points and decode to the header, to the hash of the entry and to the
signature. Of the scheme only one thing is used, that a signature made with a seed is good under the
public key of the seed (`Scheme.Agrees`).
-/

namespace AuditTrail

open Signature (Scheme Jws SignedUnder Attested)

theorem textHash_ne_empty (text : String) : textHash text ≠ "" := by
  intro h
  have hchars := congrArg String.toList h
  rw [textHash, String.toList_append] at hchars
  exact absurd (List.append_eq_nil_iff.mp hchars).1 (by decide)

namespace Signer

variable {scheme : Scheme} {s : Signer}

/-- The hash of an entry does not cover its proof. -/
@[simp] theorem hash_signEntry (e : Entry) : (s.signEntry scheme e).hash = e.hash := rfl

theorem header_eq : header = .object [("alg", .string "EdDSA")] := rfl

theorem read?_header : Json.read? header.wire = some header := by
  refine Json.read?_wire ?_ (by decide)
  rw [header_eq, Json.wellFormed_object]
  refine ⟨List.pairwise_singleton _ _, ?_⟩
  intro m hm
  rw [List.mem_singleton.mp hm]
  trivial

theorem headerAllows_signPayload (payload : String) : (s.signPayload scheme payload).HeaderAllows := by
  refine ⟨header.wire, [("alg", .string "EdDSA")], Base64Url.decode?_encode _, read?_header, ?_⟩
  intro found hfound
  exact (Option.some.inj hfound).symm

theorem isCutOf_signPayload {payload : String} (hpayload : payload ≠ "") :
    (s.signPayload scheme payload).IsCutOf (s.signPayload scheme payload).text := by
  have hpoint : ∀ bytes : Bytes, '.' ∉ Base64Url.encode bytes := fun _ hmem =>
    (Base64Url.mem_encode hmem).2 rfl
  have hsignature : ∀ message, scheme.sign s.seed message ≠ [] := fun message hnil => by
    have hlength := scheme.length_sign s.seed message
    rw [hnil] at hlength
    exact absurd hlength (by decide)
  -- Base64url text has no points, so the only points are the two that were put in.
  refine ⟨?_, ?_, ?_⟩
  · simp [Jws.text, Jws.segments, Text.joinWith, List.intercalate]
  · simp [Jws.segments, signPayload, hpoint]
  · simp only [Jws.segments, signPayload, List.forall_mem_cons, List.not_mem_nil, false_implies,
      implies_true, and_true]
    exact ⟨by decide +kernel, Base64Url.encode_ne_nil (Bytes.ofString_ne_nil hpayload),
      Base64Url.encode_ne_nil (hsignature _)⟩

/-- A fresh proof is good under the key of the signer. -/
theorem signedUnder_signEntry (hagrees : scheme.Agrees s.seed) (e : Entry) :
    SignedUnder scheme (scheme.publicKey s.seed) (s.signPayload scheme e.hash)
      (s.signEntry scheme e) where
  cut := isCutOf_signPayload (textHash_ne_empty _)
  header := headerAllows_signPayload _
  payload := Base64Url.decode?_encode _
  signature := ⟨_, Base64Url.decode?_encode _, scheme.length_sign _ _, hagrees.2 _⟩

/-- **A signed entry is attested**, where the document of its signer can be found. -/
theorem attested_signEntry {answer : String → Except Failure DidDocument}
    (hagrees : scheme.Agrees s.seed) (hdid : s.did ≠ "") (hhash : '#' ∉ s.did.toList)
    (hkeyId : s.keyId ≠ "") (hanswer : answer s.did = .ok (s.document scheme)) (e : Entry) :
    Attested scheme answer (s.signEntry scheme e) := by
  refine ⟨s.did, s.document scheme, _, scheme.publicKey s.seed, s.signPayload scheme e.hash,
    ⟨s.keyId.toList, ?_, hhash, ?_, ?_⟩, hanswer, ⟨rfl, [], [], rfl, by simp⟩,
    ⟨List.mem_cons_of_mem _ (List.mem_singleton_self _), ?_, ?_, ?_⟩,
    signedUnder_signEntry hagrees e⟩
  · simp [signEntry, methodId]
  · simpa [String.toList_eq_nil_iff] using hdid
  · simpa [String.toList_eq_nil_iff] using hkeyId
  · refine ⟨_, rfl, rfl, rfl, ?_⟩
    rw [publicKeyText, String.toList_ofList]
    exact Base64Url.decode?_encode _
  · exact scheme.length_publicKey _
  · exact hagrees.1

end Signer

end AuditTrail
