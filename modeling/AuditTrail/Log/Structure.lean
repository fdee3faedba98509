import AuditTrail.Identity
import AuditTrail.Json.Schema
import AuditTrail.Log.Entry
import AuditTrail.Report
import AuditTrail.Text.Blank

/-!
# The structure of a log

A log has at least one entry, its state is an object, and six fields of every entry are not blank.
All violations are reported: those of the log first, then those of each entry in the order of the
field names (`Log.violations`).

They are found by a schema for the wire form of the log (`Log.schema`), whose reports come in no particular
order and say by a pointer what they are about. `describe` reads the pointer, and the reports are sorted by the
entry and the pointer.
-/

namespace AuditTrail

/-- The fields of an entry that must not be blank, with their names, in the order of the names. -/
def Entry.requiredFields (e : Entry) : List (String × String) :=
  [("action.name", e.action.name),
   ("id", e.id),
   ("proof.jws", e.proof.jws),
   ("proof.verificationMethod", e.proof.verificationMethod),
   ("stateHash", e.stateHash),
   ("timestamp", e.timestamp)]

/-- A violation of the structure. -/
inductive Violation
  | noEntries
  | stateNotObject (state : Json)
  | blankField (index : Nat) (field : String)

/-- The text of a violation. -/
def Violation.message : Violation → String
  | .noEntries => "audit log has no entries"
  | .stateNotObject state =>
    "schema violation at '/state': " ++ state.wire ++ " is not of type \"object\""
  | .blankField index field =>
    "entry " ++ Number.decimal index ++ ": " ++ field ++ " must not be blank"

/-- The blank fields of entry number `index`. -/
def Entry.blankFields (index : Nat) (e : Entry) : List Violation :=
  (e.requiredFields.filter fun f => Text.isBlank f.2).map fun f => .blankField index f.1

/-- The blank fields of entries numbered from `index` on. -/
def blankFieldsFrom (index : Nat) : List Entry → List Violation
  | [] => []
  | e :: rest => e.blankFields index ++ blankFieldsFrom (index + 1) rest

/-- All violations of a log. -/
def Log.violations (log : Log) : List Violation :=
  (if log.entries.isEmpty then [.noEntries] else [])
    ++ (if log.state.isObject then [] else [.stateNotObject log.state])
    ++ blankFieldsFrom 0 log.entries

/-! ## The schema -/

/-- What an action has to hold. -/
def Action.schema : Json.Schema := .object ["name"] [("name", .nonBlank)]

/-- What a proof has to hold. -/
def Proof.schema : Json.Schema :=
  .object ["verificationMethod", "jws"] [("verificationMethod", .nonBlank), ("jws", .nonBlank)]

/-- What an entry has to hold. -/
def Entry.schema : Json.Schema :=
  .object ["id", "timestamp", "action", "stateHash", "proof"]
    [("id", .nonBlank),
     ("timestamp", .nonBlank),
     ("stateHash", .nonBlank),
     ("action", Action.schema),
     ("proof", Proof.schema)]

/-- What a log has to hold. -/
def Log.schema : Json.Schema :=
  .object ["audit_log"] [("audit_log", .array 1 Entry.schema), ("state", .object [] [])]

/-! ## Findings -/

/-- The pointer to a place. No name in the schema has a character that a pointer would have to escape. -/
def pointerTo (place : List String) : String :=
  String.ofList (place.flatMap fun name => '/' :: name.toList)

/-- The entry that a pointer leads to, and the message for a report with this pointer. -/
def describe (pointer detail : String) : Option Nat × String :=
  match (Text.piecesAt '/' (pointer.toList.dropWhile (· == '/'))).map String.ofList with
  | ["audit_log"] => (none, "audit log has no entries")
  | "audit_log" :: index :: name :: names =>
    -- An index may be as large as a log is long, so there is no bound on it here.
    let entry := (Number.allDigits? index.toList).map Number.valueOf
    let label := match entry with
      | some n => Number.decimal n
      | none => index
    let field := String.ofList (Text.joinWith '.' ((name :: names).map String.toList))
    (entry, "entry " ++ label ++ ": " ++ field ++ " must not be blank")
  | _ => (none, "schema violation at '" ++ pointer ++ "': " ++ detail)

/-- What a report says of a log. -/
structure Remark where
  /-- The entry that it is about; none for the log itself. -/
  entry : Option Nat
  pointer : String
  message : String
  deriving DecidableEq, Repr

namespace Remark

/-- The remark of a report. -/
def ofReport (r : Json.Schema.Report) : Remark :=
  let pointer := pointerTo r.place
  let (entry, message) := describe pointer r.detail
  ⟨entry, pointer, message⟩

/-- Remarks come in the order of the entries, those on the log itself first, and then of the pointers. -/
def order : Remark → Remark → Ordering :=
  compareLex (compareOn entry) (compareLex (compareOn pointer) (compareOn message))

end Remark

/-- The findings that reports amount to, whatever order the reports come in. -/
def findingsOfReports (reports : List Json.Schema.Report) : List Finding :=
  ((reports.map Remark.ofReport).mergeSort fun a b => (a.order b).isLE).map fun r => ⟨.shape, r.message⟩

/-- The findings on the structure of a log. -/
def structureFindings (log : Log) : List Finding := findingsOfReports (Log.schema.check log.tree)

end AuditTrail
