import AuditTrail.Text.Bytes

/-!
# Percent escapes

An octet written as a percent sign and two hexadecimal digits. Which characters have to be escaped
depends on where they stand, so `escaped` takes the set as an argument.
-/

namespace AuditTrail.Percent

/-- The value of a percent escape, if two hexadecimal digits follow the percent sign. -/
def octet? (high low : Char) : Option UInt8 := do
  let h ← Bytes.hexValue? high
  let l ← Bytes.hexValue? low
  some (UInt8.ofNat (16 * h + l))

/-- The octets of a text with its percent escapes resolved; a percent sign that starts no escape
stands for itself. -/
def unescaped : List Char → Bytes
  | '%' :: high :: low :: rest =>
    match octet? high low with
    | some octet => octet :: unescaped rest
    | none => Bytes.ofString "%" ++ unescaped (high :: low :: rest)
  | c :: rest => Bytes.ofString (String.singleton c) ++ unescaped rest
  | [] => []

/-- A text with its percent escapes resolved, if that is a text again. -/
def unescapedText? (text : List Char) : Option (List Char) :=
  (Bytes.toString? (unescaped text)).map String.toList

/-- The capital hexadecimal digit of a number below sixteen. -/
def capitalDigit (n : Nat) : Char :=
  if n < 10 then Char.ofNat (48 + n) else Char.ofNat (55 + n)

/-- The escape of an octet. -/
def escapeOctet (octet : UInt8) : List Char :=
  ['%', capitalDigit (octet.toNat / 16), capitalDigit (octet.toNat % 16)]

/-- The escapes of a character, one for each octet of its encoding. -/
def escapeChar (c : Char) : List Char :=
  (Bytes.ofString (String.singleton c)).flatMap escapeOctet

/-- Whether a character cannot stand in a URL anywhere: a control character, or one beyond ASCII. -/
def isUnsafe (c : Char) : Bool := c.toNat < 0x20 || 0x7E < c.toNat

/-- A text with all unsafe characters and those of a set escaped. Percent signs are left as they are. -/
def escaped (set : List Char) (text : List Char) : List Char :=
  text.flatMap fun c => if isUnsafe c || set.contains c then escapeChar c else [c]

end AuditTrail.Percent
