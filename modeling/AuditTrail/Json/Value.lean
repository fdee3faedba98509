import AuditTrail.ByName
import AuditTrail.Number.Layout

/-!
# JSON values

A value as the rest of the library handles it. A number keeps whether it was written as an integer
or as a double, because both output formats show the difference. The members of an object are kept
in the order of their names (by code point, which is the order of their UTF-8 octets), each name
once; `Json.WellFormed` says so, together with the range of the integers.
-/

namespace AuditTrail

/-- A JSON number. -/
inductive Json.Number
  /-- An integer between `-2 ^ 63` and `2 ^ 64 - 1`. -/
  | int (value : Int)
  | double (value : Number.Double)
  deriving DecidableEq

/-- A JSON value. -/
inductive Json
  | null
  | bool (value : Bool)
  | number (value : Json.Number)
  | string (value : String)
  | array (items : List Json)
  | object (members : List (String × Json))

namespace Json

/-- The members of an object, in the order of their names. -/
abbrev Members := ByName Json

/-- Whether an integer fits the number type: from `-2 ^ 63` to `2 ^ 64 - 1`. -/
def intInRange (i : Int) : Bool :=
  decide (-9223372036854775808 ≤ i ∧ i ≤ 18446744073709551615)

mutual

/-- The values that can be read from a text: integers in range, members in order. -/
def WellFormed : Json → Prop
  | .null => True
  | .bool _ => True
  | .number (.int i) => intInRange i = true
  | .number (.double _) => True
  | .string _ => True
  | .array items => WellFormedItems items
  | .object members => ByName.Sorted members ∧ WellFormedMembers members
termination_by structural v => v

/-- All items are well-formed. -/
def WellFormedItems : List Json → Prop
  | [] => True
  | v :: rest => WellFormed v ∧ WellFormedItems rest
termination_by structural v => v

/-- The values of all members are well-formed. -/
def WellFormedMembers : List (String × Json) → Prop
  | [] => True
  | (_, v) :: rest => WellFormed v ∧ WellFormedMembers rest
termination_by structural v => v

end

/-- The object of members given in any order. -/
def ofMembers (members : List (String × Json)) : Json := .object (ByName.ofList members)

/-- The member of an object with a name; `none` for a value that is no object. -/
def get? (name : String) : Json → Option Json
  | .object members => ByName.find? name members
  | _ => none

/-- Whether a value is an object. -/
def isObject : Json → Bool
  | .object _ => true
  | _ => false

/-- The text that a value is; `none` for a value that is no text. -/
def string? : Json → Option String
  | .string s => some s
  | _ => none

/-- The number of a natural number, for counts. -/
def ofNat (n : Nat) : Json := .number (.int n)

end Json

end AuditTrail
