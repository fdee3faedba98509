import AuditTrail.Json.Record

/-!
# DID documents

What a signer publishes under its DID: verification methods, each with a key. Only what the check of
a signature needs is kept of a document.
-/

namespace AuditTrail

open Json.Tree (required? orElse? nullable? text? list?)

/-- A published key. -/
structure Jwk where
  keyType : String
  curve : String
  /-- The key as base64url text. -/
  x : String
  deriving DecidableEq

/-- A named key of a document. -/
structure VerificationMethod where
  /-- The DID, `#`, and the name of the key. -/
  id : String
  methodType : String
  controller : String
  jwk : Option Jwk
  deriving DecidableEq

/-- The document of a DID. -/
structure DidDocument where
  id : String
  methods : List VerificationMethod
  deriving DecidableEq

namespace DidDocument

/-- The first method with an id. -/
def findMethod? (document : DidDocument) (id : String) : Option VerificationMethod :=
  document.methods.find? fun m => m.id == id

end DidDocument

/-! ## Writing -/

/-- The tree of a key. -/
def Jwk.tree (k : Jwk) : Json.Tree :=
  .ofFields [("kty", .ofText k.keyType), ("crv", .ofText k.curve), ("x", .ofText k.x)]

/-- The tree of a method. -/
def VerificationMethod.tree (m : VerificationMethod) : Json.Tree :=
  .ofFields [
    ("id", .ofText m.id),
    ("type", .ofText m.methodType),
    ("controller", .ofText m.controller),
    ("publicKeyJwk", match m.jwk with
      | some k => k.tree
      | none => .null)]

/-- The tree of a document. -/
def DidDocument.tree (d : DidDocument) : Json.Tree :=
  .ofFields [("id", .ofText d.id), ("verificationMethod", .array (d.methods.map (·.tree)))]

/-! ## Reading -/

/-- Reads a key, whose type is required. -/
def Jwk.ofTree? (room : Nat) (t : Json.Tree) : Option Jwk := do
  let (_, field) ← t.record? ["kty", "crv", "x"] room
  let keyType ← required? text? (field "kty")
  let curve ← orElse? "" text? (field "crv")
  let x ← orElse? "" text? (field "x")
  some ⟨keyType, curve, x⟩

/-- Reads a method, whose id and type are required. -/
def VerificationMethod.ofTree? (room : Nat) (t : Json.Tree) : Option VerificationMethod := do
  let (room, field) ← t.record? ["id", "type", "controller", "publicKeyJwk"] room
  let id ← required? text? (field "id")
  let methodType ← required? text? (field "type")
  let controller ← orElse? "" text? (field "controller")
  let jwk ← orElse? none (nullable? (Jwk.ofTree? room)) (field "publicKeyJwk")
  some ⟨id, methodType, controller, jwk⟩

/-- Reads a document, whose id is required. -/
def DidDocument.ofTree? (room : Nat) (t : Json.Tree) : Option DidDocument := do
  let (room, field) ← t.record? ["id", "verificationMethod"] room
  let id ← required? text? (field "id")
  let methods ← orElse? [] (list? VerificationMethod.ofTree? room) (field "verificationMethod")
  some ⟨id, methods⟩

end AuditTrail
