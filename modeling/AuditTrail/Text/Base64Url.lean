import AuditTrail.Text.Pieces
import AuditTrail.Text.Bytes

/-!
# Octets as base64url text

Three octets are four symbols of six bits. The last group of one or two octets is two or three
symbols, whose unused bits are zero, and nothing is added to fill it up. `encode` writes that form;
`decodeExact?` accepts no other, and `decode?` passes over equals signs at the end.
-/

namespace AuditTrail.Base64Url

/-- Six bits. -/
abbrev Sextet := Fin 64

/-- The symbol for six bits. -/
def symbol (s : Sextet) : Char :=
  let n := s.val
  if n < 26 then Char.ofNat (65 + n)
  else if n < 52 then Char.ofNat (71 + n)
  else if n < 62 then Char.ofNat (n - 4)
  else if n = 62 then '-'
  else '_'

/-- The six bits that a symbol stands for. -/
def ofSymbol? (c : Char) : Option Sextet :=
  let n := c.toNat
  if 65 ≤ n ∧ n ≤ 90 then some (Fin.ofNat 64 (n - 65))
  else if 97 ≤ n ∧ n ≤ 122 then some (Fin.ofNat 64 (n - 71))
  else if 48 ≤ n ∧ n ≤ 57 then some (Fin.ofNat 64 (n + 4))
  else if c = '-' then some 62
  else if c = '_' then some 63
  else none

/-- Octets cut into groups of six bits. -/
def sextets : Bytes → List Sextet
  | [] => []
  | [a] =>
    [Fin.ofNat 64 (a.toNat / 4), Fin.ofNat 64 (a.toNat % 4 * 16)]
  | [a, b] =>
    [Fin.ofNat 64 (a.toNat / 4), Fin.ofNat 64 (a.toNat % 4 * 16 + b.toNat / 16),
      Fin.ofNat 64 (b.toNat % 16 * 4)]
  | a :: b :: c :: rest =>
    Fin.ofNat 64 (a.toNat / 4) :: Fin.ofNat 64 (a.toNat % 4 * 16 + b.toNat / 16)
      :: Fin.ofNat 64 (b.toNat % 16 * 4 + c.toNat / 64) :: Fin.ofNat 64 (c.toNat % 64)
      :: sextets rest

/-- Groups of six bits put together again. A group alone holds no octet, and the unused bits of the
last group must be zero. -/
def octets? : List Sextet → Option Bytes
  | [] => some []
  | [_] => none
  | [p, q] => if q.val % 16 = 0 then some [UInt8.ofNat (p.val * 4 + q.val / 16)] else none
  | [p, q, r] =>
    if r.val % 4 = 0 then
      some [UInt8.ofNat (p.val * 4 + q.val / 16), UInt8.ofNat (q.val % 16 * 16 + r.val / 4)]
    else none
  | p :: q :: r :: s :: rest =>
    (octets? rest).map fun more =>
      UInt8.ofNat (p.val * 4 + q.val / 16) :: UInt8.ofNat (q.val % 16 * 16 + r.val / 4)
        :: UInt8.ofNat (r.val % 4 * 64 + s.val) :: more

/-- The text of octets. -/
def encode (bytes : Bytes) : List Char := (sextets bytes).map symbol

/-- The octets of a text without anything at its end. -/
def decodeExact? (text : List Char) : Option Bytes := do octets? (← text.mapM ofSymbol?)

/-- The octets of a text, which may have any number of equals signs at its end. -/
def decode? (text : List Char) : Option Bytes := decodeExact? (Text.trimEnd (· == '=') text)

end AuditTrail.Base64Url
