import AuditTrail.Http.Message
import AuditTrail.Url.Read

/-!
# What a client refuses to send

A request is built before it is sent. It must have a URL with a host and one of the two schemes, and
a token that can stand in a header. Where nothing answers, these faults are all that tells requests
apart (`unanswered`).

Before anything else, a client looks whether its run has been cancelled, and then it refuses every
request (`Client.send`).
-/

namespace AuditTrail.Http

/-- What keeps a request from being sent, or from being answered. -/
inductive ClientFault
  /-- The URL cannot be read, or the token cannot stand in a header. -/
  | notBuilt
  /-- Nothing can be fetched from the URL. -/
  | unfit (url : Url)
  /-- There is no connection to the host. -/
  | noConnection (url : Url)
  deriving DecidableEq, Repr

/-- The text of a fault. -/
def ClientFault.reason : ClientFault → String
  | .notBuilt => "builder error"
  | .unfit url => "builder error for url (" ++ url.text ++ ")"
  | .noConnection url => "error sending request for url (" ++ url.text ++ ")"

/-- Whether a character can stand in a header. -/
def isHeaderChar (c : Char) : Bool := c == '\t' || (0x20 ≤ c.toNat && c.toNat ≠ 0x7F)

/-- The characters that a domain name may hold but no request line. -/
def unsendableHostChars : List Char := ['"', '\x60', '\x7b', '\x7d']

namespace Request

/-- The URL of a request as it is sent. A user name and password are taken out of it, unless they are
no text. -/
def target (r : Request) : Except ClientFault Url :=
  match Url.read? r.url with
  | none => .error .notBuilt
  | some url =>
    match url.host with
    | none => .error (.unfit url)
    | some host =>
      if host.isEmpty then .error (.unfit url)
      else if (r.bearer.getD "").toList.any fun c => !isHeaderChar c then .error .notBuilt
      else
        let url := if (Percent.unescapedText? url.username).isSome then url.withoutUser else url
        if url.scheme ≠ "http".toList ∧ url.scheme ≠ "https".toList then .error (.unfit url)
        else if host.any unsendableHostChars.contains then .error (.unfit url)
        else .ok url

/-- The fault of a request that nobody answers. -/
def faultUnanswered (r : Request) : ClientFault :=
  match r.target with
  | .ok url => .noConnection url
  | .error f => f

end Request

/-- The reply to a request without a connection to anything. -/
def unanswered (r : Request) : Reply := .error (.transport r.url r.faultUnanswered.reason)

/-- A client whose run can be cancelled. -/
structure Client (m : Type → Type) where
  isCancelled : m Bool
  /-- Sends a request, and returns the response or why there is none. -/
  exchange : Request → m Reply

namespace Client

variable {m : Type → Type} [Monad m]

/-- Sends a request, unless the run has been cancelled. -/
def send (client : Client m) (r : Request) : m Reply := do
  if ← client.isCancelled then pure (.error .cancelled) else client.exchange r

/-- A client without a connection to anything. -/
def disconnected (isCancelled : m Bool) : Client m := ⟨isCancelled, fun r => pure (unanswered r)⟩

end Client

end AuditTrail.Http
