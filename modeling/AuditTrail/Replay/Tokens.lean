import AuditTrail.Http.Exchange
import AuditTrail.Replay.Config
import AuditTrail.Text.Quoted

/-!
# Tokens and the order in which they are tried

A runtime authorizes a call by a token, and which party's token an action needs is not known for
sure. So a call is tried with one token after the other, the likely ones first (`PartyTokens.order`).
Where tokens come from is the second half of the module: they are configured, or exchanged for a name
and password.
-/

namespace AuditTrail.Replay

open Http (Exchange Request Reply)
open Json.Tree (required? text?)

/-- One attempt to authorize a call; without a token it is an anonymous one. -/
structure Attempt where
  label : String
  token : Option String
  deriving DecidableEq, Repr

/-- The text of an attempt, which must not give the token away. -/
def Attempt.shown (a : Attempt) : String :=
  "Credential \x7b label: " ++ Text.shown a.label ++ ", token: "
    ++ (if a.token.isSome then "Some(\"<redacted>\")" else "None") ++ " \x7d"

/-- The tokens of a replay. -/
structure PartyTokens where
  byParty : ByName String
  /-- The token of no party in particular. -/
  legacy : Option String
  deriving DecidableEq, Repr

namespace PartyTokens

/-- Whether there is no token at all. -/
def isEmpty (t : PartyTokens) : Bool := t.byParty.isEmpty && t.legacy.isNone

/-- The label of the legacy token. -/
def legacyLabel : String := "<default>"

/-- The only attempt of those who have no token. -/
def anonymous : Attempt := ⟨"anonymous", none⟩

/-- Adds an attempt unless its token has been tried. -/
def addNew (attempts : List Attempt) (label token : String) : List Attempt :=
  if attempts.any fun a => a.token == some token then attempts
  else attempts ++ [⟨label, some token⟩]

/-- The parties in the order in which their tokens are to be tried: the hinted one, the audited ones,
all others. -/
def partyOrder (t : PartyTokens) (hint : Option String) (audited : List String) : List String :=
  hint.toList ++ audited.mergeSort (fun a b => decide (a ≤ b)) ++ t.byParty.names

/-- The attempts with the tokens of parties, each token once. -/
def partyAttempts (t : PartyTokens) (parties : List String) : List Attempt :=
  parties.foldl (fun attempts party =>
    match t.byParty.find? party with
    | some token => addNew attempts party token
    | none => attempts) []

/-- The attempts to authorize a call, in order; there is always one. -/
def order (t : PartyTokens) (hint : Option String) (audited : List String) : List Attempt :=
  let attempts := t.partyAttempts (t.partyOrder hint audited)
  let attempts := match t.legacy with
    | some token => addNew attempts legacyLabel token
    | none => attempts
  if attempts.isEmpty then [anonymous] else attempts

end PartyTokens

/-! ## Getting tokens -/

/-- The fields of the form that exchanges a name and password. -/
def grantForm (config : LocalConfig) (who : Credentials) : List (String × String) :=
  [("grant_type", "password"), ("client_id", config.clientId), ("username", who.username),
    ("password", who.password)]
  ++ match config.clientSecret with
    | some secret => [("client_secret", secret)]
    | none => []

/-- Reads the token out of the answer to an exchange. -/
def tokenOfTree? (room : Nat) (t : Json.Tree) : Option String := do
  let (_, field) ← t.record? ["access_token"] room
  required? text? (field "access_token")

/-- The token in the reply to an exchange. -/
def grantedToken? (url : String) (reply : Reply) : Option String :=
  match reply with
  | .ok response =>
    if response.isSuccess then (response.record url tokenOfTree?).toOption else none
  | .error _ => none

/-- Exchanges a name and password for a token. Nothing is sent if it is not known where to. -/
def grant (config : LocalConfig) (who : Credentials) : Exchange (Option String) :=
  match config.authUrl with
  | some url => do
    let reply ← Exchange.send (Request.postForm url (grantForm config who))
    pure (grantedToken? url reply)
  | none => pure none

/-- Exchanges the passwords of parties, one party after the other. -/
def grantEach (config : LocalConfig) : List (String × Credentials) → Exchange (List (String × String))
  | [] => pure []
  | (party, who) :: rest => do
    let token ← grant config who
    let more ← grantEach config rest
    pure (match token with
      | some token => (party, token) :: more
      | none => more)

/-- The token of no party in particular: the one configured, or else the one that the configured name
and password yield. -/
def legacyToken (config : LocalConfig) : Exchange (Option String) :=
  match config.token, config.username, config.password with
  | some token, _, _ => pure (some token)
  | none, some username, some password => grant config ⟨username, password⟩
  | _, _, _ => pure none

/-- Gets all tokens of a configuration. A token from an exchange stands before a configured one, and
an exchange that fails leaves the others as they are. -/
def PartyTokens.resolve (config : LocalConfig) : Exchange PartyTokens := do
  let granted ← grantEach config config.parties
  let legacy ← legacyToken config
  pure ⟨ByName.ofList (config.tokens ++ granted), legacy⟩

end AuditTrail.Replay
