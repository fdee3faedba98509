import AuditTrail.Json.Wire
import AuditTrail.Text.Pieces

/-!
# Canonical text

The text of a value that is hashed and signed, by RFC 8785: no white space, the members of every
object ordered by the UTF-16 code units of their names, numbers as doubles in their shortest form.
Values that differ only in the spelling of numbers have one canonical text.
-/

namespace AuditTrail.Json

/-- The UTF-16 code units of a character. -/
def codeUnits (c : Char) : List Nat :=
  let n := c.toNat
  if n < 0x10000 then [n] else [0xD800 + (n - 0x10000) / 0x400, 0xDC00 + (n - 0x10000) % 0x400]

/-- The UTF-16 code units of a text. -/
def utf16 (text : String) : List Nat := text.toList.flatMap codeUnits

/-- Whether the first of two member names stands before the second in canonical text. -/
def nameLe (a b : String) : Bool := Text.lexLe (fun x y => decide (x < y)) (utf16 a) (utf16 b)

/-- The greatest magnitude up to which every integer is a double. -/
def exactInteger : Nat := 9007199254740992

/-- The canonical numeral of a double. Both zeros are written `0`. -/
def canonicalDouble (d : Number.Double) : Number.Numeral :=
  if d.isZero then .ofInt 0 else doubleNumeral .canonical .up d

/-- The canonical numeral of a number: an integer as it is while every integer is a double, beyond
that the nearest double. -/
def canonicalNumeral : Json.Number → Number.Numeral
  | .int i =>
    if i.natAbs ≤ exactInteger then .ofInt i
    else
      match Number.Double.ofInt? i with
      | some d => canonicalDouble d
      | none => .ofInt i
  | .double d => canonicalDouble d

/-- Members in canonical order. -/
def sortMembers (members : List (String × Tree)) : List (String × Tree) :=
  members.mergeSort fun a b => nameLe a.1 b.1

mutual

/-- The tree that the canonical text of a value writes. -/
def canonicalTree : Json → Tree
  | .null => .null
  | .bool b => .bool b
  | .number n => .number (canonicalNumeral n)
  | .string s => .string (some s)
  | .array items => .array (canonicalItems items)
  | .object members =>
    .object ((sortMembers (canonicalMembers members)).map fun (name, t) => (some name, t))
termination_by structural v => v

/-- The trees of items. -/
def canonicalItems : List Json → List Tree
  | [] => []
  | v :: rest => canonicalTree v :: canonicalItems rest
termination_by structural v => v

/-- The names and trees of members, in the order they are kept in. -/
def canonicalMembers : List (String × Json) → List (String × Tree)
  | [] => []
  | (name, v) :: rest => (name, canonicalTree v) :: canonicalMembers rest
termination_by structural v => v

end

/-- The canonical text of a value. -/
def canonical (v : Json) : String := String.ofList v.canonicalTree.chars

end AuditTrail.Json
