import AuditTrail.Json.Tree

/-!
# The wire text of a value

What is sent over the network and stored in files: no white space, members in the order they are
kept in, doubles with their shortest digits.
-/

namespace AuditTrail.Json

/-- The numeral of a finite double under a layout; both zeros keep the sign they are given. -/
def doubleNumeral (layout : Number.Layout) (tie : Number.Tie) (d : Number.Double) : Number.Numeral :=
  if d.isZero then ⟨d.negative, [Number.Digit.zero], layout.fractionOf [], none⟩
  else layout.numeral d.negative (Number.shortest tie d.ordinal)

/-- The numeral of a number in wire text. -/
def wireNumeral : Json.Number → Number.Numeral
  | .int i => .ofInt i
  | .double d => doubleNumeral .wire .toEven d

mutual

/-- The tree that the wire text of a value writes. -/
def wireTree : Json → Tree
  | .null => .null
  | .bool b => .bool b
  | .number n => .number (wireNumeral n)
  | .string s => .string (some s)
  | .array items => .array (wireItems items)
  | .object members => .object (wireMembers members)
termination_by structural v => v

/-- The trees of items. -/
def wireItems : List Json → List Tree
  | [] => []
  | v :: rest => wireTree v :: wireItems rest
termination_by structural v => v

/-- The trees of members. -/
def wireMembers : List (String × Json) → List (Option String × Tree)
  | [] => []
  | (name, v) :: rest => (some name, wireTree v) :: wireMembers rest
termination_by structural v => v

end

/-- The wire text of a value. -/
def wire (v : Json) : String := String.ofList v.wireTree.chars

end AuditTrail.Json
