import AuditTrail.Proofs.Issuer.Signer
import AuditTrail.Signature.Ed25519

/-!
# A proof belongs to one entry

The payload of a signature is the hash of the entry, and the hash commits to every field but the proof.
So a proof that is moved to another entry is refused, and it is refused at the payload: whatever stands
in front of that check depends on the proof alone (`checkEntry_of_same_proof`).
-/

namespace AuditTrail

theorem Sha256.length_digest (message : Bytes) : (Sha256.digest message).length = 32 := by
  simp [digest, State.words, Bytes.ofBigEndian, Ed25519.length_ofLittleEndian]

namespace Signature

/-- Under the proof of another entry, an entry of another hash fails at the payload. -/
theorem checkEntry_of_same_proof {scheme : Scheme} {answer : String → Except Failure DidDocument}
    {e e' : Entry} (h : Attested scheme answer e) (hproof : e'.proof = e.proof)
    (hhash : e.hash ≠ e'.hash) :
    Id.run (checkEntry scheme (fun did => pure (answer did)) e')
      = .error (Fault.payloadMismatch e'.hash e.hash).failure := by
  obtain ⟨did, document, method, key, j, hdid, hdocument, hmethod, hkey, hsigned⟩ := h
  -- Everything in front of the payload is read off the proof alone, so it passes as it did before.
  have hjws : checkJws scheme key e' = .error (.payloadMismatch e'.hash e.hash) := by
    have hparse := Jws.parse_eq_ok.mpr hsigned.cut
    rw [checkJws, hproof, hparse, Except.ok_bind, Jws.checkHeader_eq_ok.mpr hsigned.header,
      Except.ok_bind, Jws.payloadText_eq_ok.mpr hsigned.payload, Except.ok_bind, if_pos hhash]
  have hchecked : checkProof scheme document e' = .error (.payloadMismatch e'.hash e.hash) := by
    rw [checkProof, hproof, findMethod?_eq_some.mpr hmethod]
    dsimp only
    rw [publicKeyOf_eq_ok.mpr hkey, Except.ok_bind, hjws]
  rw [run_checkEntry (hproof ▸ hdid), hdocument]
  show (checkProof scheme document e').mapError Fault.failure = _
  rw [hchecked]
  rfl

/-- **A good proof is good for one entry.** An entry passes exactly if it is attested. The proof of an
entry that passes is refused at the payload for every other entry, unless the two agree on every hashed
field or their texts collide. -/
theorem attestation_binds_entry {σ : Type} {scheme : Scheme} {resolve : Resolver (StateM σ)}
    {answer : String → Except Failure DidDocument}
    (hanswer : ∀ did s, (resolve did s).1 = answer did) (e : Entry) (s : σ) :
    ((checkEntry scheme resolve e s).1 = .ok () ↔ Attested scheme answer e)
      ∧ ((checkEntry scheme resolve e s).1 = .ok () → e.WellFormed →
        ∀ (e' : Entry) (s' : σ), e'.WellFormed → e'.proof = e.proof →
          (checkEntry scheme resolve e' s').1
              = .error (Fault.payloadMismatch e'.hash e.hash).failure
            ∨ Entry.SameCommitted e e'
            ∨ Collision [e.projection.canonical, e'.projection.canonical]) := by
  have haccepts : (checkEntry scheme resolve e s).1 = .ok () ↔ Attested scheme answer e := by
    rw [checkEntry_eq hanswer]
    exact accepts_iff
  refine ⟨haccepts, ?_⟩
  intro haccepted hwell e' s' hwell' hproof
  by_cases hhash : e.hash = e'.hash
  · exact Or.inr (Entry.sameCommitted_of_hash hwell hwell' List.mem_cons_self
      (List.mem_cons_of_mem _ List.mem_cons_self) hhash)
  · left
    rw [checkEntry_eq hanswer]
    exact checkEntry_of_same_proof (haccepts.mp haccepted) hproof hhash

/-- A scheme without secrets, for trying things out: the signature of a message is the key and the
digest of the message. -/
def openScheme : Scheme where
  admits _ := true
  verify key message signature := signature == key ++ Sha256.digest message
  publicKey seed := (seed ++ List.replicate 32 0).take 32
  sign seed message := (seed ++ List.replicate 32 0).take 32 ++ Sha256.digest message
  length_publicKey seed := by simp
  length_sign seed message := by simp [Sha256.length_digest]

theorem openScheme_agrees (seed : Bytes) : openScheme.Agrees seed :=
  ⟨rfl, fun _ => beq_self_eq_true _⟩

/-- A signed payment passes under a resolver that counts what it is asked; with its proof, the same
payment at another time does not, unless the two texts collide. -/
theorem attestation_binds_payment :
    let payment : Entry := ⟨"urn:entry:1", "2024-01-01T00:00:00Z", ⟨none, "pay", []⟩, [],
      canonicalHash (.object []), none, .blank⟩
    let signed := Signer.issuer.signEntry openScheme payment
    let moved := { signed with timestamp := "2024-01-02T00:00:00Z" }
    let resolve : Resolver (StateM Nat) := fun _ asked =>
      (.ok (Signer.issuer.document openScheme), asked + 1)
    (checkEntry openScheme resolve signed 0).1 = .ok ()
      ∧ ((checkEntry openScheme resolve moved 1).1
          = .error (Fault.payloadMismatch moved.hash signed.hash).failure
        ∨ Collision [signed.projection.canonical, moved.projection.canonical]) := by
  intro payment signed moved resolve
  have hbinds := @attestation_binds_entry _ openScheme resolve
    (fun _ => .ok (Signer.issuer.document openScheme)) (fun _ _ => rfl) signed 0
  have hattested : Attested openScheme (fun _ => .ok (Signer.issuer.document openScheme)) signed :=
    Signer.attested_signEntry (openScheme_agrees _) (by decide) (by decide) (by decide) rfl payment
  have haccepted := hbinds.1.mpr hattested
  refine ⟨haccepted, ?_⟩
  rcases hbinds.2 haccepted wellFormed_noMembers moved 1 wellFormed_noMembers rfl
    with hmismatch | hsame | hcollision
  · exact Or.inl hmismatch
  · exact absurd hsame.timestamp (by decide)
  · exact Or.inr hcollision

end Signature

end AuditTrail
