import AuditTrail.Http.Exchange
import AuditTrail.Issuer.Template

/-!
# A protocol runtime as a state machine

A runtime that serves one protocol under one route. It can be constructed, its actions can be called,
and its state can be fetched: after the `n`-th accepted call (the construction is the first) the
state is the `n`-th template with the live id in it. Actions may ask for a token or fail, and one
more URL may exchange passwords for tokens.
-/

namespace AuditTrail.Simulation

open Http (Request Reply Response)

/-- What a runtime serves. -/
structure Runtime where
  baseUrl : String
  route : String
  liveId : String
  states : List Json
  /-- The one token that an action accepts, for the actions that ask for one. The construction goes by
  the name of the protocol. -/
  required : List (String × String)
  /-- The status that an action returns instead of being executed. -/
  failing : List (String × Nat)
  authUrl : Option String
  /-- User names and passwords, with the token for each pair. -/
  users : List ((String × String) × String)

/-- How far a runtime has come. -/
structure Progress where
  constructed : Bool
  /-- The number of accepted calls. -/
  calls : Nat
  deriving DecidableEq, Repr

namespace Runtime

/-- Nothing has been called. -/
def initial : Progress := ⟨false, 0⟩

/-- The URL of the route. -/
def root (rt : Runtime) : List Char :=
  Text.trimEnd (· == '/') rt.baseUrl.toList ++ rt.route.toList

/-- Whether a request is one to the route. -/
def isCall (rt : Runtime) (r : Request) : Bool :=
  r.method == .post && Text.startsWith rt.root r.url.toList

/-- Whether a request may call an action. -/
def authorizes (rt : Runtime) (action : String) (r : Request) : Bool :=
  match rt.required.lookup action with
  | some token => r.bearer == some token
  | none => true

/-- The name of the protocol: the last segment of the route. -/
def protocolName (rt : Runtime) : String :=
  String.ofList ((Text.piecesAt '/' rt.route.toList).getLast?.getD [])

/-- Exchanges a password for a token. -/
def grant (rt : Runtime) (r : Request) : Response :=
  match r.body with
  | .form fields =>
    let field (name : String) := (fields.lookup name).getD ""
    if field "grant_type" ≠ "password" then
      ⟨400, "\x7b\"error\":\"unsupported_grant_type\"\x7d"⟩
    else
      match rt.users.reverse.lookup (field "username", field "password") with
      | some token => ⟨200, (Json.ofMembers [("access_token", .string token)]).wire⟩
      | none => ⟨401, "\x7b\"error\":\"invalid_grant\"\x7d"⟩
  | _ => ⟨400, "expected form body"⟩

/-- The state after a number of calls. -/
def stateAfter? (rt : Runtime) (calls : Nat) : Option Json :=
  if calls = 0 then none
  else
    (rt.states[min (calls - 1) (rt.states.length - 1)]?).map (Template.instantiate rt.liveId)

/-- Constructs the instance, also where there is one already. -/
def construct (rt : Runtime) (p : Progress) (r : Request) : Response × Progress :=
  if rt.authorizes rt.protocolName r then
    (⟨200, (Json.ofMembers [("@id", .string rt.liveId)]).wire⟩, ⟨true, 1⟩)
  else (⟨403, "forbidden"⟩, p)

/-- Calls an action of the instance. -/
def invoke (rt : Runtime) (p : Progress) (action : String) (r : Request) : Response × Progress :=
  if rt.authorizes action r then
    match rt.failing.lookup action with
    | some status => (⟨status, "action failed"⟩, p)
    | none => (⟨200, "\x7b\x7d"⟩, { p with calls := p.calls + 1 })
  else (⟨403, "forbidden"⟩, p)

/-- The answer to a request under the route, given what its URL has after the route. -/
def respond (rt : Runtime) (p : Progress) (r : Request) (rest : List Char) : Response × Progress :=
  let instanceStart := rt.liveId.toList ++ ['/']
  match r.method with
  | .post =>
    if rest.isEmpty then rt.construct p r
    else
      match Text.dropStart? instanceStart rest with
      | some action =>
        if p.constructed && !action.isEmpty then rt.invoke p (String.ofList action) r
        else (⟨404, "no such instance"⟩, p)
      | none => (⟨404, "no such instance"⟩, p)
  | .get =>
    if rest = instanceStart then
      match rt.stateAfter? p.calls with
      | some state => (⟨200, state.wire⟩, p)
      | none => (⟨404, "no such instance"⟩, p)
    else (⟨404, "unknown route"⟩, p)

/-- Answers a request. -/
def serve (rt : Runtime) (p : Progress) (r : Request) : Reply × Progress :=
  if rt.authUrl = some r.url then (.ok (rt.grant r), p)
  else
    match Text.dropStart? (rt.root ++ ['/']) r.url.toList with
    | none => (.ok ⟨404, "unknown route"⟩, p)
    | some rest =>
      let (response, p) := rt.respond p r rest
      (.ok response, p)

end Runtime

end AuditTrail.Simulation
