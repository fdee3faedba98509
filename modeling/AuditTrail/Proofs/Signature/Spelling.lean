import AuditTrail.Proofs.Signature.Binding
import AuditTrail.Proofs.Text.Base64Url

/-!
# Octets have one spelling

The segments of a compact signature and the keys in documents are octets, written as base64url text with
any number of equals signs at the end. Whoever could write the same octets differently could make a second
proof out of a good one. This file says that nobody can (`octets_spelled_once`): the reader takes the text of
octets with equals signs behind it and nothing else, and what it refuses has a fault that can be named. So
two segments or keys of the same octets are the same text but for the equals signs (`SameButPadding`).
-/

namespace AuditTrail.Signature

open Base64Url

/-- Two texts differ at most in the equals signs at their ends. -/
def SameButPadding (text text' : List Char) : Prop :=
  Text.trimEnd (· == '=') text = Text.trimEnd (· == '=') text'

theorem sameButPadding_of_decode? {text text' : List Char} {bytes : Bytes} (h : decode? text = some bytes)
    (h' : decode? text' = some bytes) : SameButPadding text text' :=
  (decode?_eq_some.mp h).trans (decode?_eq_some.mp h').symm

theorem Jws.sameButPadding_of_octets {segment segment' : Segment} {text text' : List Char} {bytes : Bytes}
    (h : octets segment text = .ok bytes) (h' : octets segment' text' = .ok bytes) :
    SameButPadding text text' :=
  sameButPadding_of_decode? (octets_eq_ok.mp h) (octets_eq_ok.mp h')

theorem sameButPadding_of_publicKeyOf {scheme scheme' : Scheme} {method method' : VerificationMethod}
    {key : Bytes} (h : publicKeyOf scheme method = .ok key) (h' : publicKeyOf scheme' method' = .ok key) :
    ∃ jwk jwk', method.jwk = some jwk ∧ method'.jwk = some jwk'
      ∧ SameButPadding jwk.x.toList jwk'.x.toList := by
  obtain ⟨jwk, hjwk, _, _, hkey⟩ := (publicKeyOf_eq_ok.mp h).jwk
  obtain ⟨jwk', hjwk', _, _, hkey'⟩ := (publicKeyOf_eq_ok.mp h').jwk
  exact ⟨jwk, jwk', hjwk, hjwk', sameButPadding_of_decode? hkey hkey'⟩

/-- **Octets have one text.** It writes their bits, six to a symbol; it is read back with any number of
equals signs behind it; what is read is such a text; what is refused is misspelled; and neither a segment of
a signature nor a key has a second spelling. -/
theorem octets_spelled_once :
    (∀ bytes, (encode bytes).flatMap (fun c => bits 6 (alphabet.idxOf c))
      = bytes.flatMap (fun b => bits 8 b.toNat)
        ++ List.replicate (unusedBits (encode bytes).length) false)
    ∧ (∀ bytes count, decode? (encode bytes ++ List.replicate count '=') = some bytes)
    ∧ (∀ text bytes, decode? text = some bytes → encode bytes = Text.trimEnd (· == '=') text)
    ∧ (∀ text, decode? text = none ↔ Misspelled (Text.trimEnd (· == '=') text))
    ∧ (∀ segment segment' text text' bytes, Jws.octets segment text = .ok bytes →
      Jws.octets segment' text' = .ok bytes → SameButPadding text text')
    ∧ ∀ scheme scheme' method method' key, publicKeyOf scheme method = .ok key →
      publicKeyOf scheme' method' = .ok key → ∃ jwk jwk', method.jwk = some jwk
        ∧ method'.jwk = some jwk' ∧ SameButPadding jwk.x.toList jwk'.x.toList := by
  refine ⟨bits_encode, decode?_padded, ?_, fun _ => decode?_eq_none, ?_, ?_⟩
  · intro text bytes h
    exact (decode?_eq_some.mp h).symm
  · intro segment segment' text text' bytes h h'
    exact Jws.sameButPadding_of_octets h h'
  · intro scheme scheme' method method' key h h'
    exact sameButPadding_of_publicKeyOf h h'

/-- Two octets are three symbols, with or without equals signs behind them. A symbol that sets the unused
bits, one too many, an equals sign inside and a character of the other alphabet are each refused. A key may
be published with the equals sign that its length asks for, and the other text for it is without. -/
theorem octets_spelled_once_short :
    let zeroKey := "AAAAAAAAAAAAAAAAAAAAAAAAAAAAAAAAAAAAAAAAAAA"
    let method := fun x =>
      (⟨"did:key:a#k", "JsonWebKey2020", "", some ⟨"OKP", "Ed25519", x⟩⟩ : VerificationMethod)
    encode [251, 255] = "-_8".toList
      ∧ decode? "-_8==".toList = some [251, 255]
      ∧ SameButPadding "-_8==".toList "-_8".toList
      ∧ decode? "-_9".toList = none
      ∧ decode? "-_8AA".toList = none
      ∧ decode? "-_=8".toList = none
      ∧ decode? "+_8".toList = none
      ∧ publicKeyOf openScheme (method zeroKey) = .ok (List.replicate 32 0)
      ∧ publicKeyOf openScheme (method (zeroKey ++ "=")) = .ok (List.replicate 32 0)
      ∧ SameButPadding zeroKey.toList (zeroKey ++ "=").toList := by
  intro zeroKey method
  obtain ⟨_, hpadded, _, hrefused, hsegment, hkeys⟩ := octets_spelled_once
  have htext : encode [251, 255] = "-_8".toList := by decide
  have htwo : decode? "-_8==".toList = some [251, 255] := hpadded [251, 255] 2
  have hbare : decode? "-_8".toList = some [251, 255] := hpadded [251, 255] 0
  have hpublished : ∀ x : String, decode? x.toList = some (List.replicate 32 0) →
      publicKeyOf openScheme (method x) = .ok (List.replicate 32 0) := fun x hx =>
    publicKeyOf_eq_ok.mpr ⟨List.mem_cons_of_mem _ List.mem_cons_self, ⟨_, rfl, rfl, rfl, hx⟩, rfl, rfl⟩
  have hplain := hpublished zeroKey (by decide +kernel)
  have hequals := hpublished (zeroKey ++ "=") (by decide +kernel)
  refine ⟨htext, htwo, ?_, ?_, ?_, ?_, ?_, hplain, hequals, ?_⟩
  · exact hsegment .payload .payload _ _ _ (Jws.octets_eq_ok.mpr htwo) (Jws.octets_eq_ok.mpr hbare)
  · exact (hrefused _).mpr (.unused '9' (by decide) (by decide))
  · exact (hrefused _).mpr (.alone (by decide))
  · exact (hrefused _).mpr (.padded (by decide))
  · exact (hrefused _).mpr (.foreign '+' (by decide) (by decide) (by decide))
  · obtain ⟨jwk, jwk', hjwk, hjwk', hsame⟩ := hkeys _ _ _ _ _ hplain hequals
    rwa [← Option.some.inj hjwk, ← Option.some.inj hjwk'] at hsame

end AuditTrail.Signature
