import AuditTrail.Did.Document
import AuditTrail.Did.Web
import AuditTrail.Http.Exchange

/-!
# Resolving DIDs over the network

A resolver keeps a slot for every DID it was asked for. Whoever resolves a DID first holds its slot
while the document is fetched; all others wait for the slot and then find the document in it. A
failure leaves the slot empty, so the next call tries again.

A call advances in steps (`Call.advance`), and the steps of several calls may be taken in any order;
`Resolver.resolve` takes the steps of one call one after the other.
-/

namespace AuditTrail.Did

open Http (Exchange Request Reply)

/-- The place of one DID in the cache. -/
structure Slot where
  document : Option DidDocument
  /-- Whether a call holds the slot. -/
  held : Bool
  deriving DecidableEq

/-- The slots of a resolver, one for each DID it was asked for. -/
abbrev Cache := List (String × Slot)

namespace Cache

/-- The slot of a DID. -/
def slot? (cache : Cache) (did : String) : Option Slot := cache.lookup did

/-- The slot of a DID, a new one if there is none. -/
def slotOf (cache : Cache) (did : String) : Slot := (cache.slot? did).getD ⟨none, false⟩

/-- Puts a slot in the place of a DID. -/
def put (did : String) (slot : Slot) : Cache → Cache
  | [] => [(did, slot)]
  | (d, s) :: rest => if d = did then (did, slot) :: rest else (d, s) :: put did slot rest

/-- The number of documents in a cache. -/
def count (cache : Cache) : Nat := cache.countP fun entry => entry.2.document.isSome

end Cache

/-- How far a call has come. -/
inductive Progress
  /-- Nothing has been done yet. -/
  | started
  /-- The slot exists and is not held by this call. -/
  | waiting
  /-- The slot is held and not yet looked at. -/
  | holding
  /-- The slot is held and a request for the document is due. -/
  | fetching (url : String)
  /-- The slot is held and a document is there to be stored. -/
  | storing (document : DidDocument)
  /-- The slot is held and the result is there. -/
  | releasing (result : Except Failure DidDocument)
  | finished (result : Except Failure DidDocument)

/-- A call of a resolver for a DID. -/
structure Call where
  did : String
  progress : Progress

/-- The document in a reply to the request for it, which must have the status 200. -/
def documentOf (did url : String) (reply : Reply) : Except Failure DidDocument :=
  match reply with
  | .error f => .error (.didResolution did ("GET " ++ url ++ " failed: " ++ f.message))
  | .ok response =>
    if response.status ≠ 200 then
      .error (.didResolution did
        ("GET " ++ url ++ " returned HTTP " ++ Number.decimal response.status))
    else
      match response.record url DidDocument.ofTree? with
      | .ok document => .ok document
      | .error f => .error (.didResolution did ("GET " ++ url ++ ": " ++ f.message))

/-- The next step of a call. -/
inductive Move
  /-- The cache is changed. -/
  | changes (cache : Cache) (call : Call)
  /-- A request is sent, and the call goes on by the reply. The cache is not touched meanwhile. -/
  | asks (request : Request) (next : Reply → Call)

/-- The next step of a call; `none` if the call is finished or another one holds the slot. -/
def Call.advance (settings : Settings) (cache : Cache) (call : Call) : Option Move :=
  let did := call.did
  let slot := cache.slotOf did
  match call.progress with
  | .started => some (.changes (cache.put did slot) ⟨did, .waiting⟩)
  | .waiting =>
    if slot.held then none
    else some (.changes (cache.put did { slot with held := true }) ⟨did, .holding⟩)
  | .holding =>
    match slot.document with
    | some document => some (.changes cache ⟨did, .releasing (.ok document)⟩)
    | none =>
      match location settings did with
      | .ok url => some (.changes cache ⟨did, .fetching url⟩)
      | .error fault => some (.changes cache ⟨did, .releasing (.error (fault.failure did))⟩)
  | .fetching url =>
    some (.asks (Request.get url) fun reply =>
      match documentOf did url reply with
      | .ok document => ⟨did, .storing document⟩
      | .error f => ⟨did, .releasing (.error f)⟩)
  | .storing document =>
    some (.changes (cache.put did { slot with document := some document })
      ⟨did, .releasing (.ok document)⟩)
  | .releasing result =>
    some (.changes (cache.put did { slot with held := false }) ⟨did, .finished result⟩)
  | .finished _ => none

/-- Takes at most the given number of steps of a call. -/
def Call.advanceAlone (settings : Settings) : (steps : Nat) → Cache → Call → Exchange (Cache × Call)
  | 0, cache, call => .done (cache, call)
  | steps + 1, cache, call =>
    match call.advance settings cache with
    | some (.changes cache call) => call.advanceAlone settings steps cache
    | some (.asks request next) =>
      .ask request fun reply => (next reply).advanceAlone settings steps cache
    | none => .done (cache, call)

/-- How many steps a call takes at most. -/
def Call.maxSteps : Nat := 6

/-- The result of a call; one that has none yet counts as unresolved. -/
def Call.result (call : Call) : Except Failure DidDocument :=
  match call.progress with
  | .finished result => result
  | _ => .error (.didResolution call.did "resolution in progress")

/-- Resolves a DID, with nothing else going on. -/
def resolve (settings : Settings) (cache : Cache) (did : String) :
    Exchange (Except Failure DidDocument × Cache) := do
  let (cache, call) ← Call.advanceAlone settings Call.maxSteps cache ⟨did, .started⟩
  pure (call.result, cache)

/-- Resolves DIDs one after the other. -/
def resolveEach (settings : Settings) (cache : Cache) :
    List String → Exchange (List (Except Failure DidDocument) × Cache)
  | [] => pure ([], cache)
  | did :: rest => do
    let (result, cache) ← resolve settings cache did
    let (results, cache) ← resolveEach settings cache rest
    pure (result :: results, cache)

/-- Resolves DIDs from a list of documents, of which a later one takes the place of an earlier one
with the same id. -/
def fromDocuments (documents : List DidDocument) (did : String) : Except Failure DidDocument :=
  match documents.reverse.find? fun d => d.id == did with
  | some document => .ok document
  | none => .error (.didResolution did "unknown DID")

end AuditTrail.Did
