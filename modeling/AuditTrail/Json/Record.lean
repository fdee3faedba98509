import AuditTrail.Json.Tree

/-!
# Reading records

How a JSON text is read into a type of the library. A record is an object whose members are its
fields, in any order, or an array of its fields in their declared order. Members with other names
are passed over, whatever they hold; a field that is given twice is a fault. Every reader takes the
number of containers that may still stand inside each other (`room`).
-/

namespace AuditTrail.Json.Tree

/-- The room inside a container; there is none left at depth `maxDepth`. -/
def enter? : (room : Nat) → Option Nat
  | 0 => none
  | room + 1 => some room

/-- What a record holds for a field: nothing, or a tree. The outer `none` is a repeated field. -/
abbrev FieldMap := String → Option (Option Tree)

/-- The one member of a name. -/
def memberOnce? (name : String) (members : List (Option String × Tree)) : Option (Option Tree) :=
  match members.filter fun m => m.1 == some name with
  | [] => some none
  | [(_, t)] => some (some t)
  | _ => none

/-- The fields of a record whose declared fields are `names`, and the room inside it. -/
def record? (names : List String) (room : Nat) : Tree → Option (Nat × FieldMap)
  | .object members => do
    let room ← enter? room
    if members.all fun m => m.1.isSome then some (room, fun name => memberOnce? name members)
    else none
  | .array items => do
    let room ← enter? room
    if items.length ≤ names.length then
      some (room, fun name => some ((names.zip items).lookup name))
    else none
  | _ => none

/-- Reads a field that must be there. -/
def required? {α : Type} (read : Tree → Option α) (slot : Option (Option Tree)) : Option α := do
  match ← slot with
  | some t => read t
  | none => none

/-- Reads a field that has a default. -/
def orElse? {α : Type} (default : α) (read : Tree → Option α) (slot : Option (Option Tree)) :
    Option α := do
  match ← slot with
  | some t => read t
  | none => some default

/-- Reads `null` as nothing. -/
def nullable? {α : Type} (read : Tree → Option α) : Tree → Option (Option α)
  | .null => some none
  | t => (read t).map some

/-- Reads a text. -/
def text? : Tree → Option String
  | .string s => s
  | _ => none

/-- Reads a truth value. -/
def bool? : Tree → Option Bool
  | .bool b => some b
  | _ => none

/-- Reads a natural number below `2 ^ 64`, written as an integer. -/
def natural? : Tree → Option Nat
  | .number n =>
    match number? n with
    | some (.int (.ofNat value)) => some value
    | _ => none
  | _ => none

/-- Reads a list. -/
def list? {α : Type} (read : (room : Nat) → Tree → Option α) (room : Nat) : Tree → Option (List α)
  | .array items => do
    let room ← enter? room
    items.mapM (read room)
  | _ => none

/-- Reads an object with values of any kind. -/
def members? (room : Nat) : Tree → Option Members
  | .object members => do
    let room ← enter? room
    (valueMembers? room members).map ByName.ofList
  | _ => none

/-- Reads one of a list of names: as a text, or as an object with the name as its only member and
`null` as its value. -/
def oneOf? (names : List String) (room : Nat) : Tree → Option String
  | .string (some s) => if names.contains s then some s else none
  | .object [(some s, .null)] => do
    let _ ← enter? room
    if names.contains s then some s else none
  | _ => none

end AuditTrail.Json.Tree

namespace AuditTrail.Json

/-- Reads a text that writes a record. -/
def readAs? {α : Type} (read : (room : Nat) → Tree → Option α) (text : String) : Option α := do
  read Tree.maxDepth (← Tree.read? text)

/-- The tree of a text. -/
def Tree.ofText (s : String) : Tree := .string (some s)

/-- The tree of a text that may be missing. -/
def Tree.ofText? : Option String → Tree
  | some s => .ofText s
  | none => .null

/-- The tree of a natural number. -/
def Tree.ofNat (n : Nat) : Tree := .number (.ofInt n)

/-- The tree of a record, with its fields in the given order. -/
def Tree.ofFields (fields : List (String × Tree)) : Tree :=
  .object (fields.map fun (name, t) => (some name, t))

/-- The text of a tree. -/
def Tree.text (t : Tree) : String := String.ofList t.chars

end AuditTrail.Json
