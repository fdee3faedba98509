import AuditTrail.Text.Pieces

/-!
# Which characters are blank

Two different sets are in use. Trimming and the party declarations go by the Unicode property
`White_Space`; the required fields of an audit entry go by the shorter list `schemaBlank`.
-/

namespace AuditTrail.Text

/-- The Unicode property `White_Space`. -/
def isWhiteSpace (c : Char) : Bool :=
  let n := c.toNat
  (0x09 ≤ n && n ≤ 0x0D) || n == 0x20 || n == 0x85 || n == 0xA0 || n == 0x1680
    || (0x2000 ≤ n && n ≤ 0x200A) || n == 0x2028 || n == 0x2029 || n == 0x202F || n == 0x205F
    || n == 0x3000

/-- The characters that leave a required field blank. -/
def schemaBlank : List Char :=
  [' ', '\t', '\n', '\x0b', '\x0c', '\r', '\u00a0', '\u2003', '\u2029', '\ufeff']

/-- Whether a required field counts as missing: it has no character outside `schemaBlank`. -/
def isBlank (text : String) : Bool := text.toList.all fun c => schemaBlank.contains c

/-- A text without white space at either end. -/
def trimmed (text : List Char) : List Char := trim isWhiteSpace text

/-- Whether a text consists of white space only. -/
def isWhite (text : String) : Bool := text.toList.all isWhiteSpace

/-- A character with the capital letters `A` to `Z` made small. -/
def lowerAscii (c : Char) : Char :=
  if 'A' ≤ c ∧ c ≤ 'Z' then Char.ofNat (c.toNat + 32) else c

end AuditTrail.Text
