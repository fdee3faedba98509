import AuditTrail.Json.Record
import AuditTrail.Text.Blank

/-!
# Schemas

A schema says what shape a document has: an object with members that must be there and schemas for some of
them, a list with a least number of items and one schema for all of them, or a text that is not blank.
`Schema.faults` lists what a document violates, each keyword of the schema once for every place in the document
at which it is violated. A keyword other than the type says nothing of a place of another type.
-/

namespace AuditTrail.Json

/-- A schema. -/
inductive Schema
  | object (required : List String) (properties : List (String × Schema))
  | array (minItems : Nat) (items : Schema)
  /-- A text with a character that is not blank. -/
  | nonBlank

namespace Schema

/-- What a schema can ask of a place. -/
inductive Keyword
  | type (name : String)
  | required (name : String)
  | minItems (count : Nat)
  | pattern
  deriving DecidableEq, Repr

/-- A keyword that is violated. -/
structure Fault where
  /-- The names and indices that lead to the place. -/
  place : List String
  keyword : Keyword
  /-- What stands there. -/
  found : Tree

/-- The names that must be there and are not. -/
def missing (required : List String) (members : List (Option String × Tree)) : List String :=
  required.filter fun name => !members.any fun m => m.1 == some name

mutual

/-- What a document that stands at a place violates. -/
def faults (place : List String) : Schema → Tree → List Fault
  | .object required properties, t =>
    match t with
    | .object members =>
      (missing required members).map (fun name => ⟨place, .required name, t⟩)
        ++ memberFaults place members properties
    | _ => [⟨place, .type "object", t⟩]
  | .array minItems items, t =>
    match t with
    | .array found =>
      (if found.length < minItems then [⟨place, .minItems minItems, t⟩] else [])
        ++ found.zipIdx.flatMap fun (item, index) => faults (place ++ [Number.decimal index]) items item
    | _ => [⟨place, .type "array", t⟩]
  | .nonBlank, t =>
    match t with
    | .string (some text) => if Text.isBlank text then [⟨place, .pattern, t⟩] else []
    -- Half a surrogate pair is not blank.
    | .string none => []
    | _ => [⟨place, .type "string", t⟩]
termination_by structural schema => schema

/-- What the members of an object violate. -/
def memberFaults (place : List String) (members : List (Option String × Tree)) :
    List (String × Schema) → List Fault
  | [] => []
  | (name, schema) :: rest =>
    (match members.lookup (some name) with
      | some t => faults (place ++ [name]) schema t
      | none => [])
    ++ memberFaults place members rest
termination_by structural properties => properties

end

/-- The report of a fault. -/
structure Report where
  place : List String
  detail : String
  deriving DecidableEq, Repr

/-- The text about a fault. Only that about a wrong type is ever shown. -/
def Fault.detail (f : Fault) : String :=
  match f.keyword with
  | .type name => f.found.text ++ " is not of type \"" ++ name ++ "\""
  | _ => ""

/-- The reports on a document. -/
def check (schema : Schema) (document : Tree) : List Report :=
  (schema.faults [] document).map fun f => ⟨f.place, f.detail⟩

end Schema

end AuditTrail.Json
