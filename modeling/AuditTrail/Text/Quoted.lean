import AuditTrail.Number.Numeral
import AuditTrail.Text.Bytes
import AuditTrail.Text.HiddenChars

/-!
# Texts in quotes

How a text is shown where a reader must see where it starts and ends: in double quotes, with escapes
for quotes, backslashes and everything that would not be seen.
-/

namespace AuditTrail.Text

/-- The hexadecimal digits of a number, as long as they are at most `places` many. -/
def hexDigits : (places : Nat) → Nat → List Char
  | 0, _ => []
  | places + 1, n =>
    if n < 16 then [Bytes.hexDigit n] else hexDigits places (n / 16) ++ [Bytes.hexDigit (n % 16)]

/-- A character of a text in quotes. -/
def shownChar (c : Char) : List Char :=
  match c with
  | '"' => ['\\', '"']
  | '\\' => ['\\', '\\']
  | '\n' => ['\\', 'n']
  | '\r' => ['\\', 'r']
  | '\t' => ['\\', 't']
  | '\x00' => ['\\', '0']
  | c =>
    if isHidden c then "\\u\x7b".toList ++ hexDigits 6 c.toNat ++ ['\x7d'] else [c]

/-- A text in quotes. -/
def shown (text : String) : String :=
  String.ofList ('"' :: (text.toList.flatMap shownChar ++ ['"']))

end AuditTrail.Text
