import AuditTrail.Log.Entry
import AuditTrail.Json.Canonical
import AuditTrail.Hash.Sha256

/-!
# What an entry commits to

Every digest in a log is `sha256:` and the hexadecimal SHA-256 of a canonical text. The hash of an
entry is the one of its unsigned projection: all of the entry but its proof. The next entry repeats
it, and the entry's own proof signs it.
-/

namespace AuditTrail

/-- What every digest starts with. -/
def hashScheme : String := "sha256:"

/-- The digest of a text. -/
def textHash (text : String) : String :=
  hashScheme ++ (Sha256.digest (Bytes.ofString text)).hex

/-- The digest of a value. -/
def canonicalHash (value : Json) : String := textHash value.canonical

namespace Entry

/-- The committed part of an action. -/
def committedAction (a : Action) : Json :=
  .ofMembers (
    (match a.kind with
      | some k => [("type", .string k.name)]
      | none => [])
    ++ [("name", .string a.name), ("parameters", .object a.parameters)])

/-- The fields of an entry that its hash covers. -/
def projection (e : Entry) : Json :=
  .ofMembers [
    ("id", .string e.id),
    ("timestamp", .string e.timestamp),
    ("action", committedAction e.action),
    ("notificationHashes", .array (e.notificationHashes.map .string)),
    ("stateHash", .string e.stateHash),
    ("previousHash", match e.previousHash with
      | some h => .string h
      | none => .null)]

/-- The hash of an entry. -/
def hash (e : Entry) : String := canonicalHash e.projection

end Entry

end AuditTrail
