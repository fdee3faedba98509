import AuditTrail.Text.Bytes

/-!
# Octets and texts

Two ways from octets to text and back. Two hexadecimal digits for each octet are enough to tell octets
apart: reading the digits gives the octets back. And octets are a text exactly if they are the encoding
of that text.
-/

namespace AuditTrail.Bytes

theorem hexValue?_hexDigit : ∀ n : Fin 16, hexValue? (hexDigit n.val) = some n.val := by decide

theorem ofHex?_hexChars (bytes : Bytes) : ofHex? bytes.hexChars = some bytes := by
  induction bytes with
  | nil => rfl
  | cons b rest ih =>
    have hbound : b.toNat < 256 := b.toNat_lt
    have hhigh := hexValue?_hexDigit ⟨b.toNat / 16, by omega⟩
    have hlow := hexValue?_hexDigit ⟨b.toNat % 16, by omega⟩
    have hsplit : 16 * (b.toNat / 16) + b.toNat % 16 = b.toNat := Nat.div_add_mod _ _
    show ofHex? (hexDigit (b.toNat / 16) :: hexDigit (b.toNat % 16) :: hexChars rest) = _
    simp only [ofHex?, hhigh, hlow, ih, Option.bind_eq_bind, Option.bind_some, hsplit,
      UInt8.ofNat_toNat]

theorem hex_injective {a b : Bytes} (h : a.hex = b.hex) : a = b := by
  have hchars : a.hexChars = b.hexChars := String.ofList_injective h
  have hread := ofHex?_hexChars a
  rw [hchars, ofHex?_hexChars b] at hread
  exact (Option.some.inj hread).symm

theorem toString?_eq_some {bytes : Bytes} {text : String} :
    toString? bytes = some text ↔ bytes = ofString text := by
  unfold toString? ofString String.fromUTF8?
  constructor
  · intro h
    split at h
    · rw [← Option.some.inj h]
      rfl
    · exact absurd h (by simp)
  · rintro rfl
    have hvalid : (ByteArray.mk text.toUTF8.data.toList.toArray).IsValidUTF8 := text.isValidUTF8
    rw [dif_pos hvalid]
    rfl

theorem ofString_ne_nil {text : String} (h : text ≠ "") : ofString text ≠ [] := by
  intro hnil
  have hread := toString?_eq_some.mpr hnil.symm
  have hempty : toString? [] = some "" := rfl
  rw [hempty] at hread
  exact h (Option.some.inj hread).symm

end AuditTrail.Bytes
