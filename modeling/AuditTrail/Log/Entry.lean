import AuditTrail.Json.Record
import AuditTrail.Json.Wire

/-!
# Audit logs

The transcript that a protocol runtime keeps of one instance: the entries in causal order, each a
recorded action with its proof, and the state after the last of them. Missing texts are read as
empty ones, so that the structure check can report them.

The second half of the module is how a log is written and read.
-/

namespace AuditTrail

/-- What an entry did. -/
inductive ActionKind
  | constructor
  | permission
  | obligation
  deriving DecidableEq, Repr

namespace ActionKind

/-- The kind of an action that does not name its kind: the first entry constructs the instance. -/
def inferred (index : Nat) : ActionKind := if index = 0 then .constructor else .permission

/-- The name of a kind. -/
def name : ActionKind → String
  | .constructor => "constructor"
  | .permission => "permission"
  | .obligation => "obligation"

/-- All kinds. -/
def all : List ActionKind := [.constructor, .permission, .obligation]

/-- The kind of a name. -/
def ofName? (s : String) : Option ActionKind := all.find? fun k => k.name == s

end ActionKind

/-- A recorded action. -/
structure Action where
  /-- The kind, in logs that record it. -/
  kind : Option ActionKind
  name : String
  parameters : Json.Members

/-- The signature envelope of an entry. -/
structure Proof where
  proofType : String
  created : String
  /-- The DID of the signer, `#`, and the name of the key. -/
  verificationMethod : String
  proofPurpose : String
  /-- The compact signature: header, payload and signature, with points between them. -/
  jws : String
  deriving DecidableEq

/-- One recorded step of the instance. -/
structure Entry where
  id : String
  timestamp : String
  action : Action
  notificationHashes : List String
  /-- The hash of the state after this step. -/
  stateHash : String
  /-- The hash of the entry before; the first entry has none. -/
  previousHash : Option String
  proof : Proof

/-- An audit log. -/
structure Log where
  entries : List Entry
  /-- The state after the last entry. -/
  state : Json

/-! ## Writing -/

/-- The tree of an action; the kind is left out where there is none. -/
def Action.tree (a : Action) : Json.Tree :=
  .ofFields (
    (match a.kind with
      | some k => [("type", .ofText k.name)]
      | none => [])
    ++ [("name", .ofText a.name), ("parameters", (Json.object a.parameters).wireTree)])

/-- The tree of a proof. -/
def Proof.tree (p : Proof) : Json.Tree :=
  .ofFields [
    ("type", .ofText p.proofType),
    ("created", .ofText p.created),
    ("verificationMethod", .ofText p.verificationMethod),
    ("proofPurpose", .ofText p.proofPurpose),
    ("jws", .ofText p.jws)]

/-- The tree of an entry. -/
def Entry.tree (e : Entry) : Json.Tree :=
  .ofFields [
    ("id", .ofText e.id),
    ("timestamp", .ofText e.timestamp),
    ("action", e.action.tree),
    ("notificationHashes", .array (e.notificationHashes.map .ofText)),
    ("stateHash", .ofText e.stateHash),
    ("previousHash", .ofText? e.previousHash),
    ("proof", e.proof.tree)]

/-- The tree of a log. -/
def Log.tree (l : Log) : Json.Tree :=
  .ofFields [("audit_log", .array (l.entries.map Entry.tree)), ("state", l.state.wireTree)]

/-- The wire text of a log. -/
def Log.wire (l : Log) : String := l.tree.text

/-! ## Reading -/

open Json.Tree (required? orElse? nullable? text? list? members? oneOf?)

/-- Reads a kind. -/
def ActionKind.ofTree? (room : Nat) (t : Json.Tree) : Option ActionKind := do
  ofName? (← oneOf? (all.map name) room t)

/-- An action without a kind, a name and parameters. -/
def Action.blank : Action := ⟨none, "", []⟩

/-- Reads an action. -/
def Action.ofTree? (room : Nat) (t : Json.Tree) : Option Action := do
  let (room, field) ← t.record? ["type", "name", "parameters"] room
  let kind ← orElse? none (nullable? (ActionKind.ofTree? room)) (field "type")
  let name ← orElse? "" text? (field "name")
  let parameters ← orElse? [] (members? room) (field "parameters")
  some ⟨kind, name, parameters⟩

/-- A proof with nothing in it. -/
def Proof.blank : Proof := ⟨"", "", "", "", ""⟩

/-- Reads a proof. -/
def Proof.ofTree? (room : Nat) (t : Json.Tree) : Option Proof := do
  let (_, field) ←
    t.record? ["type", "created", "verificationMethod", "proofPurpose", "jws"] room
  let proofType ← orElse? "" text? (field "type")
  let created ← orElse? "" text? (field "created")
  let verificationMethod ← orElse? "" text? (field "verificationMethod")
  let proofPurpose ← orElse? "" text? (field "proofPurpose")
  let jws ← orElse? "" text? (field "jws")
  some ⟨proofType, created, verificationMethod, proofPurpose, jws⟩

/-- The fields of an entry, in order. -/
def Entry.fieldNames : List String :=
  ["id", "timestamp", "action", "notificationHashes", "stateHash", "previousHash", "proof"]

/-- Reads an entry. -/
def Entry.ofTree? (room : Nat) (t : Json.Tree) : Option Entry := do
  let (room, field) ← t.record? fieldNames room
  let id ← orElse? "" text? (field "id")
  let timestamp ← orElse? "" text? (field "timestamp")
  let action ← orElse? .blank (Action.ofTree? room) (field "action")
  let notificationHashes ← orElse? [] (list? (fun _ => text?) room) (field "notificationHashes")
  let stateHash ← orElse? "" text? (field "stateHash")
  let previousHash ← orElse? none (nullable? text?) (field "previousHash")
  let proof ← orElse? .blank (Proof.ofTree? room) (field "proof")
  some ⟨id, timestamp, action, notificationHashes, stateHash, previousHash, proof⟩

/-- Reads a log. -/
def Log.ofTree? (room : Nat) (t : Json.Tree) : Option Log := do
  let (room, field) ← t.record? ["audit_log", "state"] room
  let entries ← orElse? [] (list? Entry.ofTree? room) (field "audit_log")
  let state ← orElse? (.object []) (Json.Tree.value? room) (field "state")
  some ⟨entries, state⟩

/-- Reads the JSON text of a log. -/
def Log.ofText? (text : String) : Option Log := Json.readAs? Log.ofTree? text

/-- The last entry. -/
def Log.last? (l : Log) : Option Entry := l.entries.getLast?

end AuditTrail
