import AuditTrail.Identity
import AuditTrail.Issuer.Signer
import AuditTrail.Issuer.Template
import AuditTrail.Issuer.Timestamp

/-!
# Issuing audit logs

A draft of a log grows entry by entry. Each entry is dated, linked to the one before it and signed as
it is added, so that a finished log passes every check that needs no runtime.
-/

namespace AuditTrail

open Signature (Scheme)

/-- A step to be recorded: what was done, and the template of the state after it. -/
structure Step where
  /-- The kind to record, if one is to be recorded. -/
  kind : Option ActionKind
  name : String
  /-- Anything but an object stands for no parameters. -/
  parameters : Json
  state : Json

/-- A log in the making. -/
structure Draft where
  signer : Signer
  identity : Identity
  entries : List Entry
  state : Json

namespace Draft

/-- The identity of the logs in examples. -/
def exampleIdentity : Identity :=
  ⟨"example.com", "demo", "Iou",
    ⟨[3, 15, 10, 8, 5, 15, 6, 4, 5, 7, 1, 7, 4, 5, 6, 2, 11, 3, 15, 12, 2, 12, 9, 6, 3, 15, 6, 6, 10,
      15, 10, 6], by decide⟩, none⟩

/-- A draft without entries. -/
def start (signer : Signer) (identity : Identity) : Draft := ⟨signer, identity, [], .object []⟩

/-- The parameters that a value gives. -/
def parametersOf : Json → Json.Members
  | .object members => members
  | _ => []

/-- The entry that records a step, before it is signed. -/
def unsigned (d : Draft) (s : Step) : Entry :=
  let index := d.entries.length
  let state := Template.instantiate d.identity.protocolId.display s.state
  { id := { d.identity with index := some index }.display
    timestamp := Timestamp.ofIndex index
    action := ⟨s.kind, s.name, parametersOf s.parameters⟩
    notificationHashes := []
    stateHash := canonicalHash state
    previousHash := d.entries.getLast?.map Entry.hash
    proof := .blank }

/-- Records a step. -/
def push (scheme : Scheme) (d : Draft) (s : Step) : Draft :=
  { d with
    entries := d.entries ++ [d.signer.signEntry scheme (d.unsigned s)]
    state := Template.instantiate d.identity.protocolId.display s.state }

/-- The step that constructs the instance; its action has the name of the protocol. -/
def construction (d : Draft) (parameters state : Json) : Step :=
  ⟨some .constructor, d.identity.protocolName, parameters, state⟩

/-- The log as far as it has come. -/
def finish (d : Draft) : Log := ⟨d.entries, d.state⟩

end Draft

/-! ## An example -/

namespace Sample

/-- The members that all states of the example have. -/
def stateOf (actions : List (String × Json)) (paid : Nat) : Json :=
  .ofMembers [
    ("@id", .string Template.placeholder),
    ("@parties", .ofMembers [("issuer", .object []), ("payee", .object [])]),
    ("@actions", .ofMembers actions),
    ("forAmount", .ofNat 100),
    ("paid", .ofNat paid)]

/-- The action that is open as long as something is owed. -/
def openActions : List (String × Json) :=
  [("pay", .string ("http://localhost:12000/npl/demo/Iou/" ++ Template.placeholder ++ "/pay"))]

/-- A log of three entries: an amount is promised, paid in part, and the rest forgiven. -/
def log (scheme : Scheme) : Log :=
  let draft := Draft.start .issuer Draft.exampleIdentity
  let amount := Json.ofMembers [("forAmount", .ofNat 100)]
  let draft := draft.push scheme (draft.construction amount (stateOf openActions 0))
  let draft := draft.push scheme
    ⟨some .permission, "pay", .ofMembers [("amount", .ofNat 40)], stateOf openActions 40⟩
  let draft := draft.push scheme ⟨some .permission, "forgive", .object [], stateOf [] 100⟩
  draft.finish

end Sample

end AuditTrail
