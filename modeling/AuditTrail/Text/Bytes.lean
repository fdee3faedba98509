/-!
# Octets

Octets as a list, their hexadecimal text, and the UTF-8 encoding of texts.
-/

namespace AuditTrail

/-- A sequence of octets. -/
abbrev Bytes := List UInt8

namespace Bytes

/-- The UTF-8 encoding of a text. -/
def ofString (text : String) : Bytes := text.toUTF8.data.toList

/-- The text that octets encode, if they are valid UTF-8. -/
def toString? (bytes : Bytes) : Option String := String.fromUTF8? ⟨bytes.toArray⟩

/-- The small hexadecimal digit of a number below sixteen. -/
def hexDigit (n : Nat) : Char :=
  if n < 10 then Char.ofNat (48 + n) else Char.ofNat (87 + n)

/-- The value of a hexadecimal digit, in either case. -/
def hexValue? (c : Char) : Option Nat :=
  let n := c.toNat
  if 48 ≤ n ∧ n ≤ 57 then some (n - 48)
  else if 97 ≤ n ∧ n ≤ 102 then some (n - 87)
  else if 65 ≤ n ∧ n ≤ 70 then some (n - 55)
  else none

/-- Octets as small hexadecimal digits, two for each. -/
def hexChars (bytes : Bytes) : List Char :=
  bytes.flatMap fun b => [hexDigit (b.toNat / 16), hexDigit (b.toNat % 16)]

/-- Octets as hexadecimal text. -/
def hex (bytes : Bytes) : String := String.ofList bytes.hexChars

/-- The octets that a hexadecimal text of even length writes. -/
def ofHex? : List Char → Option Bytes
  | [] => some []
  | [_] => none
  | high :: low :: rest => do
    let h ← hexValue? high
    let l ← hexValue? low
    let more ← ofHex? rest
    some (UInt8.ofNat (16 * h + l) :: more)

/-- The number that octets write, least significant octet first. -/
def littleEndian : Bytes → Nat
  | [] => 0
  | b :: rest => b.toNat + 256 * littleEndian rest

/-- The lowest `count` octets of a number, least significant first. -/
def ofLittleEndian : (count : Nat) → Nat → Bytes
  | 0, _ => []
  | count + 1, n => UInt8.ofNat (n % 256) :: ofLittleEndian count (n / 256)

/-- The lowest `count` octets of a number, most significant first. -/
def ofBigEndian (count n : Nat) : Bytes := (ofLittleEndian count n).reverse

end Bytes

end AuditTrail
