import AuditTrail.Proofs.Failure
import AuditTrail.Proofs.Log.Commitment
import AuditTrail.Proofs.Signature.Check
import AuditTrail.Proofs.Text.Pieces

/-!
# What an accepted proof shows

The check of an entry is a row of checks, each of which may fail. `Attested` is what they ask for
together, said of the parts of the proof and not of the checks: which DID, document, method and key the
proof leads to, and how its compact signature is put together. Each check gets one lemma on when it
passes, and

> an entry passes exactly if it is attested (`accepts_iff`).
-/

namespace AuditTrail

namespace Signature

/-! ## The parts of a proof -/

/-- A method id is a DID, the first `#`, and something behind it. -/
def IsDidOf (did methodId : String) : Prop :=
  ∃ fragment, methodId.toList = did.toList ++ '#' :: fragment ∧ '#' ∉ did.toList
    ∧ did.toList ≠ [] ∧ fragment ≠ []

/-- The first method of a document that has an id. -/
def IsFirstMethod (document : DidDocument) (id : String) (method : VerificationMethod) : Prop :=
  method.id = id
    ∧ ∃ before after, document.methods = before ++ method :: after ∧ ∀ m ∈ before, m.id ≠ id

/-- A method publishes a key of a scheme. -/
structure Publishes (scheme : Scheme) (method : VerificationMethod) (key : Bytes) : Prop where
  supported : method.methodType ∈ supportedTypes
  jwk : ∃ jwk, method.jwk = some jwk ∧ jwk.keyType = "OKP" ∧ jwk.curve = "Ed25519"
    ∧ Base64Url.decode? jwk.x.toList = some key
  length : key.length = 32
  admitted : scheme.admits key = true

namespace Jws

/-- The segments of a compact signature, in order. -/
def segments (j : Jws) : List (List Char) := [j.header, j.payload, j.signature]

/-- A text is three segments with points between them, none empty and none with a point in it. -/
structure IsCutOf (j : Jws) (text : String) : Prop where
  joined : text.toList = Text.joinWith '.' j.segments
  noPoint : ∀ segment ∈ j.segments, '.' ∉ segment
  nonempty : ∀ segment ∈ j.segments, segment ≠ []

/-- The header is an object, and names no algorithm but the one in use. -/
def HeaderAllows (j : Jws) : Prop :=
  ∃ text members, Base64Url.decode? j.header = some (Bytes.ofString text)
    ∧ Json.read? text = some (.object members)
    ∧ ∀ found, ByName.find? "alg" members = some found → found = .string "EdDSA"

end Jws

/-- The signature of an entry is good under a key: its payload is the hash of the entry, and the scheme
accepts it for the header and payload as they stand in it. -/
structure SignedUnder (scheme : Scheme) (key : Bytes) (j : Jws) (e : Entry) : Prop where
  cut : j.IsCutOf e.proof.jws
  header : j.HeaderAllows
  payload : Base64Url.decode? j.payload = some (Bytes.ofString e.hash)
  signature : ∃ octets, Base64Url.decode? j.signature = some octets ∧ octets.length = 64
    ∧ scheme.verify key (Bytes.ofString (String.ofList (j.header ++ '.' :: j.payload))) octets = true

/-- The proof of an entry leads to a published key, and the signature is good under it. -/
def Attested (scheme : Scheme) (answer : String → Except Failure DidDocument) (e : Entry) : Prop :=
  ∃ did document method key j,
    IsDidOf did e.proof.verificationMethod
      ∧ answer did = .ok document
      ∧ IsFirstMethod document e.proof.verificationMethod method
      ∧ Publishes scheme method key
      ∧ SignedUnder scheme key j e

/-! ## When the checks pass -/

theorem didOf_eq_ok {methodId did : String} : didOf methodId = .ok did ↔ IsDidOf did methodId := by
  unfold didOf IsDidOf
  cases hcut : Text.cutAt? '#' methodId.toList with
  | none =>
    simp only [reduceCtorEq, false_iff]
    rintro ⟨fragment, htext, hdid, _⟩
    rw [Text.cutAt?_eq_some.mpr ⟨htext, hdid⟩] at hcut
    exact absurd hcut (by simp)
  | some cut =>
    obtain ⟨before, fragment⟩ := cut
    obtain ⟨htext, hbefore⟩ := Text.cutAt?_eq_some.mp hcut
    constructor
    · intro h
      dsimp only at h
      split at h
      · exact absurd h (by simp)
      · rename_i hsides
        simp only [Bool.or_eq_true, List.isEmpty_iff, not_or] at hsides
        rw [← Except.ok.inj h, String.toList_ofList]
        exact ⟨fragment, htext, hbefore, hsides.1, hsides.2⟩
    · rintro ⟨fragment', htext', hdid, hne, hne'⟩
      -- The first `#` is in one place only.
      have hsame := Text.cutAt?_eq_some.mpr ⟨htext', hdid⟩
      rw [hcut, Option.some.injEq, Prod.mk.injEq] at hsame
      obtain ⟨rfl, rfl⟩ := hsame
      simp [hne, hne']

theorem findMethod?_eq_some {document : DidDocument} {id : String} {method : VerificationMethod} :
    document.findMethod? id = some method ↔ IsFirstMethod document id method := by
  simp [DidDocument.findMethod?, List.find?_eq_some_iff_append, IsFirstMethod]

theorem publicKeyOf_eq_ok {scheme : Scheme} {method : VerificationMethod} {key : Bytes} :
    publicKeyOf scheme method = .ok key ↔ Publishes scheme method key := by
  unfold publicKeyOf
  constructor
  · intro h
    split at h
    · exact absurd h (by simp)
    rename_i hsupported
    split at h
    · exact absurd h (by simp)
    rename_i jwk hjwk
    split at h
    · exact absurd h (by simp)
    rename_i hcurve
    split at h
    · exact absurd h (by simp)
    rename_i found hfound
    split at h
    · exact absurd h (by simp)
    rename_i hlength
    split at h
    · rename_i hadmits
      obtain rfl := Except.ok.inj h
      simp only [not_or, not_not] at hcurve hlength
      exact ⟨by simpa using hsupported, ⟨jwk, hjwk, hcurve.1, hcurve.2, hfound⟩, hlength, hadmits⟩
    · exact absurd h (by simp)
  · rintro ⟨hsupported, ⟨jwk, hjwk, htype, hcurve, hfound⟩, hlength, hadmits⟩
    simp [hsupported, hjwk, htype, hcurve, hfound, hlength, hadmits]

namespace Jws

theorem parse_eq_ok {text : String} {j : Jws} : parse text = .ok j ↔ j.IsCutOf text := by
  have hsegments : j.IsCutOf text ↔ Text.piecesAt '.' text.toList = j.segments
      ∧ ∀ segment ∈ j.segments, segment ≠ [] := by
    rw [Text.piecesAt_eq_iff (by simp [segments]), and_assoc]
    exact ⟨fun h => ⟨h.joined, h.noPoint, h.nonempty⟩, fun h => ⟨h.1, h.2.1, h.2.2⟩⟩
  rw [hsegments]
  unfold parse segments
  constructor
  · intro h
    dsimp only at h
    split at h
    · rename_i header payload signature hpieces
      split at h
      · exact absurd h (by simp)
      · rename_i hempty
        rw [← Except.ok.inj h]
        simp only [Bool.or_eq_true, List.isEmpty_iff, not_or] at hempty
        simpa using ⟨hpieces, hempty.1.1, hempty.1.2, hempty.2⟩
    · exact absurd h (by simp)
  · rintro ⟨hpieces, hnonempty⟩
    simp only [List.forall_mem_cons, List.not_mem_nil, false_implies, implies_true, and_true]
      at hnonempty
    simp [hpieces, hnonempty]

theorem octets_eq_ok {segment : Segment} {text : List Char} {bytes : Bytes} :
    octets segment text = .ok bytes ↔ Base64Url.decode? text = some bytes := by
  unfold octets
  cases Base64Url.decode? text <;> simp

theorem checkHeader_eq_ok {j : Jws} : j.checkHeader = .ok () ↔ j.HeaderAllows := by
  unfold checkHeader HeaderAllows
  rw [Except.bind_eq_ok]
  simp only [octets_eq_ok]
  constructor
  · rintro ⟨bytes, hbytes, h⟩
    split at h
    · exact absurd h (by simp)
    · rename_i members hread
      obtain ⟨text, htext, hmembers⟩ := Option.bind_eq_some_iff.mp hread
      obtain rfl := Bytes.toString?_eq_some.mp htext
      refine ⟨text, members, hbytes, hmembers, ?_⟩
      intro found hfound
      rw [hfound] at h
      dsimp only at h
      split at h
      · rename_i name
        by_cases hname : name = algorithm
        · rw [hname]
          rfl
        · simp [hname] at h
      · exact absurd h (by simp)
    · exact absurd h (by simp)
  · rintro ⟨text, members, hbytes, hmembers, halg⟩
    refine ⟨_, hbytes, ?_⟩
    rw [Bytes.toString?_eq_some.mpr rfl, Option.bind_some, hmembers]
    dsimp only
    cases hfound : ByName.find? "alg" members with
    | none => rfl
    | some found =>
      rw [halg found hfound]
      rfl

theorem payloadText_eq_ok {j : Jws} {text : String} :
    j.payloadText = .ok text ↔ Base64Url.decode? j.payload = some (Bytes.ofString text) := by
  unfold payloadText
  rw [Except.bind_eq_ok]
  simp only [octets_eq_ok]
  constructor
  · rintro ⟨bytes, hbytes, h⟩
    split at h
    · rename_i found hfound
      obtain rfl := Except.ok.inj h
      rw [hbytes, Bytes.toString?_eq_some.mp hfound]
    · exact absurd h (by simp)
  · intro h
    refine ⟨_, h, ?_⟩
    rw [Bytes.toString?_eq_some.mpr rfl]

end Jws

theorem checkJws_eq_ok {scheme : Scheme} {key : Bytes} {e : Entry} :
    checkJws scheme key e = .ok () ↔ ∃ j, SignedUnder scheme key j e := by
  unfold checkJws
  constructor
  · intro h
    obtain ⟨j, hcut, h⟩ := Except.bind_eq_ok.mp h
    obtain ⟨_, hheader, h⟩ := Except.bind_eq_ok.mp h
    obtain ⟨payload, hpayload, h⟩ := Except.bind_eq_ok.mp h
    split at h
    · exact absurd h (by simp)
    rename_i hhash
    obtain ⟨octets, hoctets, h⟩ := Except.bind_eq_ok.mp h
    split at h
    · exact absurd h (by simp)
    rename_i hlength
    split at h
    · rename_i hverify
      rw [not_not] at hhash hlength
      rw [hhash, Jws.payloadText_eq_ok] at hpayload
      exact ⟨j, Jws.parse_eq_ok.mp hcut, Jws.checkHeader_eq_ok.mp hheader, hpayload, octets,
        Jws.octets_eq_ok.mp hoctets, hlength, hverify⟩
    · exact absurd h (by simp)
  · rintro ⟨j, hcut, hheader, hpayload, octets, hoctets, hlength, hverify⟩
    refine Except.bind_eq_ok.mpr ⟨j, Jws.parse_eq_ok.mpr hcut, ?_⟩
    refine Except.bind_eq_ok.mpr ⟨(), Jws.checkHeader_eq_ok.mpr hheader, ?_⟩
    refine Except.bind_eq_ok.mpr ⟨e.hash, Jws.payloadText_eq_ok.mpr hpayload, ?_⟩
    rw [if_neg (by simp)]
    refine Except.bind_eq_ok.mpr ⟨octets, Jws.octets_eq_ok.mpr hoctets, ?_⟩
    rw [if_neg (by simp [hlength])]
    exact if_pos hverify

theorem checkProof_eq_ok {scheme : Scheme} {document : DidDocument} {e : Entry} :
    checkProof scheme document e = .ok () ↔ ∃ method key j,
      IsFirstMethod document e.proof.verificationMethod method
        ∧ Publishes scheme method key ∧ SignedUnder scheme key j e := by
  unfold checkProof
  constructor
  · intro h
    split at h
    · exact absurd h (by simp)
    rename_i method hmethod
    obtain ⟨key, hkey, h⟩ := Except.bind_eq_ok.mp h
    obtain ⟨j, hsigned⟩ := checkJws_eq_ok.mp h
    exact ⟨method, key, j, findMethod?_eq_some.mp hmethod, publicKeyOf_eq_ok.mp hkey, hsigned⟩
  · rintro ⟨method, key, j, hmethod, hkey, hsigned⟩
    rw [findMethod?_eq_some.mpr hmethod]
    exact Except.bind_eq_ok.mpr
      ⟨key, publicKeyOf_eq_ok.mpr hkey, checkJws_eq_ok.mpr ⟨j, hsigned⟩⟩

/-! ## Entries -/

section

variable {scheme : Scheme} {answer : String → Except Failure DidDocument} {e : Entry}

theorem run_checkEntry {did : String} (hdid : IsDidOf did e.proof.verificationMethod) :
    Id.run (checkEntry scheme (fun did => pure (answer did)) e)
      = (answer did).bind fun document => (checkProof scheme document e).mapError Fault.failure := by
  unfold checkEntry
  rw [didOf_eq_ok.mpr hdid]
  dsimp only
  cases answer did <;> rfl

theorem mapError_eq_ok {x : Except Fault Unit} : x.mapError Fault.failure = .ok () ↔ x = .ok () := by
  cases x <;> simp [Except.mapError]

/-- **An entry passes exactly if it is attested.** -/
theorem accepts_iff : Accepts scheme answer e ↔ Attested scheme answer e := by
  unfold Accepts Attested
  constructor
  · intro h
    cases hdid : didOf e.proof.verificationMethod with
    | error fault =>
      rw [checkEntry, hdid] at h
      exact absurd h (by simp)
    | ok did =>
      rw [didOf_eq_ok] at hdid
      rw [run_checkEntry hdid] at h
      obtain ⟨document, hdocument, h⟩ := Except.bind_eq_ok.mp h
      obtain ⟨method, key, j, hmethod, hkey, hsigned⟩ := checkProof_eq_ok.mp (mapError_eq_ok.mp h)
      exact ⟨did, document, method, key, j, hdid, hdocument, hmethod, hkey, hsigned⟩
  · rintro ⟨did, document, method, key, j, hdid, hdocument, hmethod, hkey, hsigned⟩
    rw [run_checkEntry hdid]
    exact Except.bind_eq_ok.mpr ⟨document, hdocument,
      mapError_eq_ok.mpr (checkProof_eq_ok.mpr ⟨method, key, j, hmethod, hkey, hsigned⟩)⟩

end

end Signature

end AuditTrail
