import AuditTrail.Http.Message

/-!
# Programs that send requests

A program that may send requests is a tree: it is done, or it sends a request and goes on by the
reply. What it does is thereby fixed before anything is sent, and can be spoken of for all replies at
once (`Exchange.All`); running it (`Exchange.run`) leaves open who answers.
-/

namespace AuditTrail.Http

/-- A program that may send requests. -/
inductive Exchange (α : Type) : Type
  | done (result : α)
  | ask (request : Request) (next : Reply → Exchange α)

namespace Exchange

variable {α β : Type}

/-- Sends one request. -/
def send (request : Request) : Exchange Reply := .ask request .done

/-- Goes on with the result of a program. -/
def bind : Exchange α → (α → Exchange β) → Exchange β
  | .done a, f => f a
  | .ask r next, f => .ask r fun reply => (next reply).bind f

instance : Monad Exchange where
  pure := .done
  bind := Exchange.bind

/-- Runs a program; `answer` sends a request and returns the reply. -/
def run {m : Type → Type} [Monad m] (answer : Request → m Reply) : Exchange α → m α
  | .done a => pure a
  | .ask r next => do (next (← answer r)).run answer

/-- Every request that a program can send, whatever the replies, has a property. -/
def All (p : Request → Prop) : Exchange α → Prop
  | .done _ => True
  | .ask r next => p r ∧ ∀ reply, (next reply).All p

/-- Runs a program against a server with a state of its own. Returns the result, the requests with
their replies in order, and the state of the server at the end. -/
def against {σ : Type} (server : σ → Request → Reply × σ) (state : σ) :
    Exchange α → α × List (Request × Reply) × σ
  | .done a => (a, [], state)
  | .ask r next =>
    let (reply, state) := server state r
    let (a, sent, state) := (next reply).against server state
    (a, (r, reply) :: sent, state)

end Exchange

end AuditTrail.Http
