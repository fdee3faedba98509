import AuditTrail.Json.Value
import AuditTrail.Text.Pieces

/-!
# State templates

A state of an instance before it is known which instance it is: a placeholder stands in its strings
wherever the instance id belongs.
-/

namespace AuditTrail.Template

/-- The text that stands for the instance id. -/
def placeholder : String := "\x7b\x7bid\x7d\x7d"

/-- A text with the instance id in place of the placeholder. -/
def fill (id text : String) : String :=
  String.ofList (Text.replaceAll placeholder.toList id.toList text.toList)

mutual

/-- A value with the instance id in place of the placeholder in its strings. The names of members
stay as they are. -/
def instantiate (id : String) : Json → Json
  | .string s => .string (fill id s)
  | .array items => .array (instantiateItems id items)
  | .object members => .object (instantiateMembers id members)
  | .null => .null
  | .bool b => .bool b
  | .number n => .number n
termination_by structural v => v

/-- `instantiate` for items. -/
def instantiateItems (id : String) : List Json → List Json
  | [] => []
  | v :: rest => instantiate id v :: instantiateItems id rest
termination_by structural v => v

/-- `instantiate` for the values of members. -/
def instantiateMembers (id : String) : List (String × Json) → List (String × Json)
  | [] => []
  | (name, v) :: rest => (name, instantiate id v) :: instantiateMembers id rest
termination_by structural v => v

end

end AuditTrail.Template
