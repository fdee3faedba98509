import AuditTrail.Json.Record

/-!
# Reports

Each stage of a verification reports its findings; a verdict collects them, and is a success
exactly when there is none. A replay has a report of its own, with the number of entries replayed.
-/

namespace AuditTrail

open Json.Tree (required? orElse? nullable? text? bool? natural? list?)

/-- The stages of a verification. -/
inductive Stage
  | shape
  | hashChain
  | stateHash
  | signature
  | replay
  deriving DecidableEq, Repr

namespace Stage

/-- The stages in the order they run. -/
def all : List Stage := [.shape, .hashChain, .stateHash, .signature, .replay]

/-- The name of a stage. -/
def name : Stage → String
  | .shape => "Structure"
  | .hashChain => "HashChain"
  | .stateHash => "StateHash"
  | .signature => "Signature"
  | .replay => "Replay"

/-- The stage of a name. -/
def ofName? (s : String) : Option Stage := all.find? fun k => k.name == s

/-- Reads a stage. -/
def ofTree? (room : Nat) (t : Json.Tree) : Option Stage := do
  ofName? (← Json.Tree.oneOf? (all.map name) room t)

end Stage

/-- One fault found by one stage. -/
structure Finding where
  stage : Stage
  message : String
  deriving DecidableEq, Repr

namespace Finding

/-- The line that shows a finding. -/
def display (f : Finding) : String := "[" ++ f.stage.name ++ "] " ++ f.message

/-- The tree of a finding. -/
def tree (f : Finding) : Json.Tree :=
  .ofFields [("step", .ofText f.stage.name), ("message", .ofText f.message)]

/-- Reads a finding. -/
def ofTree? (room : Nat) (t : Json.Tree) : Option Finding := do
  let (room, field) ← t.record? ["step", "message"] room
  let stage ← required? (Stage.ofTree? room) (field "step")
  let message ← required? text? (field "message")
  some ⟨stage, message⟩

end Finding

/-- The outcome of a verification. -/
structure Verdict where
  success : Bool
  findings : List Finding
  deriving DecidableEq, Repr

namespace Verdict

/-- The verdict on findings. -/
def ofFindings (findings : List Finding) : Verdict := ⟨findings.isEmpty, findings⟩

/-- The findings of one stage. -/
def findingsOf (v : Verdict) (stage : Stage) : List Finding :=
  v.findings.filter fun f => f.stage == stage

/-- The tree of a verdict. -/
def tree (v : Verdict) : Json.Tree :=
  .ofFields [("success", .bool v.success), ("errors", .array (v.findings.map Finding.tree))]

/-- Reads a verdict as it was written; whether it is a success is not worked out again. -/
def ofTree? (room : Nat) (t : Json.Tree) : Option Verdict := do
  let (room, field) ← t.record? ["success", "errors"] room
  let success ← required? bool? (field "success")
  let findings ← required? (list? Finding.ofTree? room) (field "errors")
  some ⟨success, findings⟩

end Verdict

/-- The outcome of a replay. -/
structure ReplayReport where
  success : Bool
  /-- How many entries the runtime accepted. -/
  entriesReplayed : Nat
  /-- One message for each entry that failed or diverged. -/
  errors : List String
  deriving DecidableEq, Repr

namespace ReplayReport

/-- The report on a number of replayed entries and the messages of the others. -/
def ofErrors (entriesReplayed : Nat) (errors : List String) : ReplayReport :=
  ⟨errors.isEmpty, entriesReplayed, errors⟩

/-- The tree of a replay report. -/
def tree (r : ReplayReport) : Json.Tree :=
  .ofFields [
    ("success", .bool r.success),
    ("entries_replayed", .ofNat r.entriesReplayed),
    ("errors", .array (r.errors.map .ofText))]

/-- Reads a replay report. -/
def ofTree? (room : Nat) (t : Json.Tree) : Option ReplayReport := do
  let (room, field) ← t.record? ["success", "entries_replayed", "errors"] room
  let success ← required? bool? (field "success")
  let entriesReplayed ← required? natural? (field "entries_replayed")
  let errors ←
    required? (list? (fun _ => text?) room) (field "errors")
  some ⟨success, entriesReplayed, errors⟩

end ReplayReport

end AuditTrail
