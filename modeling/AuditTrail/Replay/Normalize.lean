import AuditTrail.Json.Value
import AuditTrail.Text.Pieces

/-!
# Bringing values into a comparable form

Logs may hold parameters as texts whatever their type was; `normalized` gives such texts their type
back before they are sent. The state of a replayed instance names that instance by an id of its own;
`withAuditedId` puts the audited id in its place. `projected` leaves of a state only what the audited
final state speaks of.
-/

namespace AuditTrail.Replay

/-! ## Types of texts -/

/-- The sign in front of a number, if there is one, and what follows it. -/
def splitSign : List Char → Bool × List Char
  | '-' :: rest => (true, rest)
  | '+' :: rest => (false, rest)
  | text => (false, text)

/-- The integer that a text writes: digits with an optional sign, in the range of 64 bits. -/
def integer? (text : List Char) : Option Int :=
  let (negative, rest) := splitSign text
  match Number.spanDigits rest with
  | ([], _) => none
  | (digits, []) =>
    let n : Int := Number.valueOf digits
    let value := if negative then -n else n
    if -9223372036854775808 ≤ value ∧ value ≤ 9223372036854775807 then some value else none
  | _ => none

/-- The exponent at the end of a number: nothing, or a mark, an optional sign and digits. -/
def exponent? : List Char → Option Int
  | [] => some 0
  | c :: rest =>
    if c = 'e' ∨ c = 'E' then
      let (negative, rest) := splitSign rest
      match Number.spanDigits rest with
      | ([], _) => none
      | (digits, []) =>
        let n : Int := Number.valueOf digits
        some (if negative then -n else n)
      | _ => none
    else none

/-- The finite double that a text writes: digits with a point among them, before them or after them,
an optional sign and an optional exponent. -/
def double? (text : List Char) : Option Number.Double := do
  let (negative, rest) := splitSign text
  let (whole, rest) := Number.spanDigits rest
  let (fraction, rest) := match rest with
    | '.' :: rest => Number.spanDigits rest
    | rest => ([], rest)
  if whole.isEmpty && fraction.isEmpty then none
  else
    let exponent ← exponent? rest
    Number.Double.ofDecimal? negative (Number.valueOf (whole ++ fraction))
      (exponent - fraction.length)

/-- The value that a text stands for: an integer, else a finite double, else a truth value, else the
text itself. -/
def normalizedText (text : String) : Json :=
  match integer? text.toList with
  | some i => .number (.int i)
  | none =>
    match double? text.toList with
    | some d => .number (.double d)
    | none =>
      if text = "true" then .bool true
      else if text = "false" then .bool false
      else .string text

mutual

/-- A value with the texts in it given their types back. -/
def normalized : Json → Json
  | .string s => normalizedText s
  | .array items => .array (normalizedItems items)
  | .object members => .object (normalizedMembers members)
  | .null => .null
  | .bool b => .bool b
  | .number n => .number n
termination_by structural v => v

/-- `normalized` for items. -/
def normalizedItems : List Json → List Json
  | [] => []
  | v :: rest => normalized v :: normalizedItems rest
termination_by structural v => v

/-- `normalized` for the values of members. -/
def normalizedMembers : List (String × Json) → List (String × Json)
  | [] => []
  | (name, v) :: rest => (name, normalized v) :: normalizedMembers rest
termination_by structural v => v

end

/-! ## Ids of instances -/

/-- The member that holds the id of an instance. -/
def idKey : String := "@id"

/-- The member that holds the URLs of the actions of an instance. -/
def actionsKey : String := "@actions"

/-- A text with one id in place of another. -/
def replaceId (live audited : String) : Json → Json
  | .string s => .string (String.ofList (Text.replaceAll live.toList audited.toList s.toList))
  | v => v

/-- The value of one member of a state with one id in place of another. -/
def replaceIdIn (live audited name : String) (v : Json) : Json :=
  if name = idKey then replaceId live audited v
  else if name = actionsKey then
    match v with
    | .object actions => .object (actions.map fun (n, url) => (n, replaceId live audited url))
    | v => v
  else v

/-- A state with the audited id in place of the live one, in the id of the instance and in the URLs of
its actions. -/
def withAuditedId (live audited : String) (state : Json) : Json :=
  if live = audited then state
  else
    match state with
    | .object members => .object (members.map fun (n, v) => (n, replaceIdIn live audited n v))
    | v => v

/-! ## Projection -/

/-- A state with only the members whose names a reference has. A reference without members, or that
is no object, leaves the state as it is. -/
def projected (reference state : Json) : Json :=
  match reference, state with
  | .object [], _ => state
  | .object names, .object members => .object (members.filter fun m => ByName.has m.1 names)
  | _, _ => state

/-! ## Positional names -/

/-- Whether a parameter is named by its place only: `arg` and a number. -/
def isPositional (name : String) : Bool :=
  match Text.dropStart? "arg".toList name.toList with
  | some rest => !rest.isEmpty && rest.all fun c => '0' ≤ c && c ≤ '9'
  | none => false

end AuditTrail.Replay
