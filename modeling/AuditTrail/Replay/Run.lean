import AuditTrail.Identity
import AuditTrail.Log.Commitment
import AuditTrail.Replay.Hints
import AuditTrail.Replay.Normalize
import AuditTrail.Replay.Tokens
import AuditTrail.Report

/-!
# Replaying a log

A replay constructs an instance of the audited protocol on a live runtime, calls the audited actions
on it in order, and after each call compares the state of the instance with the audited one. Every
entry is visited. What goes wrong with an entry becomes a message of the report; only a malformed
identity, an unreadable configuration or a cancellation ends the whole replay.

The state of a replay (`Phase`) moves in one direction: an instance is awaited, then active or given
up for good.
-/

namespace AuditTrail.Replay

open Http (Exchange Request Response Reply)
open Json.Tree (required? text?)

/-! ## Calls -/

/-- What became of a call: an accepted response, or what went wrong. -/
abbrev CallResult := Except String Response

/-- Sends a request with one token after the other, until it is not refused for lack of rights. A
cancellation is a failure of the whole replay. -/
def callWith (request : Request) : List Attempt → Exchange (Except Failure CallResult)
  | [] => pure (.ok (.error ("every party was refused (403) by " ++ request.url)))
  | attempt :: rest => do
    match ← Exchange.send (request.withBearer attempt.token) with
    | .error .cancelled => pure (.error .cancelled)
    | .error f => pure (.ok (.error f.message))
    | .ok response =>
      if response.status = 403 then callWith request rest
      else if response.isSuccess then pure (.ok (.ok response))
      else
        pure (.ok (.error
          ("HTTP " ++ Number.decimal response.status ++ " from " ++ request.url)))

/-! ## Parties and constructor bodies -/

/-- The member that holds the parties of an instance. -/
def partiesKey : String := "@parties"

/-- Whether a value says nothing: null, or a collection without anything in it. -/
def isEmptyValue : Json → Bool
  | .null => true
  | .object members => members.isEmpty
  | .array items => items.isEmpty
  | _ => false

/-- The audited parties: those of the final state, or else those among the parameters of an action. -/
def auditedParties? (state : Json) (parameters : Json.Members) : Option Json :=
  match state.get? partiesKey with
  | some parties => if isEmptyValue parties then parameters.find? partiesKey else some parties
  | none => parameters.find? partiesKey

/-- The names of parties given as an object or as a list of texts, in order. -/
def partyNames (parties : Json) : List String :=
  let names := match parties with
    | .object members => members.map Prod.fst
    | .array items => items.filterMap Json.string?
    | _ => []
  names.mergeSort fun a b => decide (a ≤ b)

/-- The names of the parties of a log, by its final state and its first entry. -/
def logParties (log : Log) : List String :=
  let parameters := match log.entries with
    | e :: _ => e.action.parameters
    | [] => []
  match auditedParties? log.state parameters with
  | some parties => partyNames parties
  | none => []

/-- The members of the final state that stand in for positional parameters. -/
def stateFields (state : Json) : Json.Members :=
  match state with
  | .object members => members.filter fun m => m.1.toList.head? != some '@'
  | _ => []

/-- What is sent to construct an instance: the parties, the parameters that have a name, and for
parameters without one the fields of the final state. A parameter wins over a field. -/
def constructorBody (action : Action) (state : Json) : Json :=
  let parties := match auditedParties? state action.parameters with
    | some parties => [(partiesKey, parties)]
    | none => []
  let named := action.parameters.filter fun m => m.1 != partiesKey && !isPositional m.1
  let positional := action.parameters.any fun m => m.1 != partiesKey && isPositional m.1
  let fields := if positional then normalizedMembers (stateFields state) else []
  .ofMembers (fields ++ normalizedMembers named ++ parties)

/-! ## Phases -/

/-- How far a replay has come. -/
inductive Phase
  | awaitingConstruction
  /-- There is an instance with a live id. -/
  | active (liveId : String)
  /-- The construction failed. -/
  | failed
  deriving DecidableEq, Repr

/-- What a replay goes by. -/
structure Setup where
  identity : Identity
  /-- The URL of the protocol on the runtime. -/
  route : String
  tokens : PartyTokens
  hints : PartyHints
  /-- The audited final state. -/
  finalState : Json
  /-- The names of the audited parties. -/
  parties : List String

namespace Setup

/-- The attempts to authorize a call. -/
def attempts (s : Setup) (hint : Option String) : List Attempt := s.tokens.order hint s.parties

/-- The URL of the constructor. -/
def constructorUrl (s : Setup) : String := s.route ++ "/"

/-- The URL of an instance. -/
def instanceUrl (s : Setup) (liveId : String) : String := s.route ++ "/" ++ liveId ++ "/"

/-- The request that constructs an instance. -/
def construction (s : Setup) (action : Action) : Request :=
  Request.postJson s.constructorUrl (constructorBody action s.finalState)

/-- The request that calls an action of an instance. -/
def invocation (s : Setup) (liveId : String) (action : Action) : Request :=
  Request.postJson (s.instanceUrl liveId ++ action.name)
    (.object (normalizedMembers action.parameters))

end Setup

/-- Reads the id of a constructed instance. -/
def liveIdOfTree? (room : Nat) (t : Json.Tree) : Option String := do
  let (_, field) ← t.record? [idKey] room
  required? text? (field idKey)

/-- Constructs an instance and returns its id. -/
def construct (s : Setup) (action : Action) : Exchange (Except Failure (Except String String)) := do
  let hint := s.hints.forConstructor? s.identity.protocolName
  match ← callWith (s.construction action) (s.attempts hint) with
  | .error f => pure (.error f)
  | .ok (.error message) => pure (.ok (.error ("constructor failed: " ++ message)))
  | .ok (.ok response) =>
    match response.record s.constructorUrl liveIdOfTree? with
    | .ok liveId => pure (.ok (.ok liveId))
    | .error _ => pure (.ok (.error "constructor response has no @id"))

/-- Calls an action of an instance. -/
def invoke (s : Setup) (liveId : String) (action : Action) :
    Exchange (Except Failure (Except String Unit)) := do
  let hint := s.hints.forAction? action.name
  match ← callWith (s.invocation liveId action) (s.attempts hint) with
  | .error f => pure (.error f)
  | .ok (.error message) => pure (.ok (.error ("action failed: " ++ message)))
  | .ok (.ok _) => pure (.ok (.ok ()))

/-- What of a live state is compared: the state under the audited id, with only the members that the
audited final state has. -/
def comparable (s : Setup) (liveId : String) (state : Json) : Json :=
  projected s.finalState (withAuditedId liveId s.identity.protocolId.display state)

/-- Compares a live state with what an entry records. -/
def compareState (s : Setup) (liveId : String) (e : Entry) (state : Json) : Except String Unit :=
  let computed := canonicalHash (comparable s liveId state)
  if computed = e.stateHash then .ok ()
  else
    .error ("state hash mismatch: audit records " ++ e.stateHash ++ ", replay produced " ++ computed
      ++ "; the protocol logic has likely changed since this audit was recorded")

/-- Fetches the state of an instance and compares it with what an entry records. -/
def checkState (s : Setup) (liveId : String) (e : Entry) :
    Exchange (Except Failure (Except String Unit)) := do
  let url := s.instanceUrl liveId
  match ← callWith (Request.get url) (s.attempts none) with
  | .error f => pure (.error f)
  | .ok (.error message) => pure (.ok (.error ("failed to fetch state: " ++ message)))
  | .ok (.ok response) =>
    match response.json url with
    | .ok state => pure (.ok (compareState s liveId e state))
    | .error f => pure (.ok (.error ("failed to read state: " ++ f.message)))

/-! ## Entries -/

/-- What became of one entry: the phase after it, whether the runtime accepted its call, and what went
wrong if anything did. -/
structure Visit where
  phase : Phase
  replayed : Bool
  error : Option String
  deriving DecidableEq, Repr

/-- The visit of an entry whose call was accepted, by the outcome of the comparison. -/
def Visit.accepted (phase : Phase) (outcome : Except String Unit) : Visit :=
  ⟨phase, true, match outcome with
    | .ok () => none
    | .error message => some message⟩

/-- Visits the entry with an index. -/
def visit (s : Setup) (phase : Phase) (index : Nat) (e : Entry) : Exchange (Except Failure Visit) :=
  match phase, e.action.kind.getD (ActionKind.inferred index) with
  | .awaitingConstruction, .constructor => do
    match ← construct s e.action with
    | .error f => pure (.error f)
    | .ok (.error message) => pure (.ok ⟨.failed, false, some message⟩)
    | .ok (.ok liveId) => do
      let outcome ← checkState s liveId e
      pure (outcome.map (Visit.accepted (.active liveId)))
  | .active liveId, .constructor =>
    pure (.ok ⟨.active liveId, false,
      some "unexpected constructor: the instance was already constructed"⟩)
  | .active liveId, _ => do
    match ← invoke s liveId e.action with
    | .error f => pure (.error f)
    | .ok (.error message) => pure (.ok ⟨.active liveId, false, some message⟩)
    | .ok (.ok ()) => do
      let outcome ← checkState s liveId e
      pure (outcome.map (Visit.accepted (.active liveId)))
  | phase, _ => pure (.ok ⟨phase, false, some "cannot replay action before constructor"⟩)

/-- Visits entries that are numbered from `index` on. -/
def visitAll (s : Setup) (phase : Phase) (index : Nat) :
    List Entry → Exchange (Except Failure (List (Entry × Visit)))
  | [] => pure (.ok [])
  | e :: rest => do
    match ← visit s phase index e with
    | .error f => pure (.error f)
    | .ok v => do
      let more ← visitAll s v.phase (index + 1) rest
      pure (more.map fun visits => (e, v) :: visits)

/-- The messages of visits that are numbered from `index` on. -/
def messagesFrom (index : Nat) : List (Entry × Visit) → List String
  | [] => []
  | (e, v) :: rest =>
    (match v.error with
      | some message =>
        ["entry " ++ Number.decimal index ++ " (" ++ e.action.name ++ "): " ++ message]
      | none => [])
    ++ messagesFrom (index + 1) rest

/-- The report on visits. -/
def report (visits : List (Entry × Visit)) : ReplayReport :=
  .ofErrors (visits.countP fun v => v.2.replayed) (messagesFrom 0 visits)

/-! ## Replays -/

/-- The identity in the id of an entry, or the failure that there is none. -/
def identityOf (e : Entry) : Except Failure Identity :=
  (Identity.parse e.id).mapError fun f => .malformedIdentity e.id f.reason

/-- What a replay of a log goes by, whose first entry must have an identity. -/
def setup (baseUrl : String) (log : Log) (tokens : PartyTokens) (hints : PartyHints) :
    Except Failure Setup :=
  match log.entries with
  | [] => .error (.replay "audit log has no entries")
  | first :: _ => do
    let identity ← identityOf first
    let base := String.ofList (Text.trimEnd (· == '/') baseUrl.toList)
    .ok ⟨identity, base ++ identity.route, tokens, hints, log.state, logParties log⟩

/-- Replays a log with given tokens and hints. -/
def replayWith (baseUrl : String) (log : Log) (tokens : PartyTokens) (hints : PartyHints) :
    Exchange (Except Failure ReplayReport) :=
  match setup baseUrl log tokens hints with
  | .error f => pure (.error f)
  | .ok s => do
    let visits ← visitAll s .awaitingConstruction 0 log.entries
    pure (visits.map report)

/-- Replays a log with the tokens and hints that belong to its sources. Nothing is exchanged for a log
without an identity. -/
def replay (w : Workspace) (baseUrl : String) (log : Log) (sources : Path) :
    Exchange (Except Failure ReplayReport) :=
  let checked := match log.entries with
    | first :: _ => (identityOf first).map fun _ => ()
    | [] => .ok ()
  match checked with
  | .error f => pure (.error f)
  | .ok () =>
    match LocalConfig.load w sources with
    | .error f => pure (.error f)
    | .ok config => do
      let tokens ← PartyTokens.resolve config
      replayWith baseUrl log tokens (.scan w sources)

end AuditTrail.Replay
