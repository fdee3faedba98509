import AuditTrail.Http.Exchange

/-!
# Servers that follow a script

Two servers that answer from a table. A script lists the outcomes of the requests with one method
and URL, in the order they are to be used, and the last one stays. Canned answers go by the URL alone
and never change.
-/

namespace AuditTrail.Simulation

open Http (Request Reply Response)

/-- What comes of one scripted request. -/
inductive Outcome
  | response (status : Nat) (body : String)
  /-- No response, for a reason. -/
  | fails (reason : String)
  | cancelled
  deriving DecidableEq, Repr

/-- The answer to what is not listed. -/
def notFound : Response := ⟨404, "not found"⟩

/-- The reply that an outcome stands for. -/
def Outcome.reply (url : String) : Outcome → Reply
  | .response status body => .ok ⟨status, body⟩
  | .fails reason => .error (.transport url reason)
  | .cancelled => .error .cancelled

/-- The outcomes still to come, by method and URL. -/
abbrev Script := List (String × List Outcome)

namespace Script

/-- The key of a request: its method, a space, and its URL. -/
def key (r : Request) : String := r.method.name ++ " " ++ r.url

/-- Gives a key other outcomes. -/
def set (name : String) (outcomes : List Outcome) : Script → Script
  | [] => [(name, outcomes)]
  | (n, o) :: rest => if n = name then (name, outcomes) :: rest else (n, o) :: set name outcomes rest

/-- Answers a request by the next outcome of its key. -/
def serve (script : Script) (r : Request) : Reply × Script :=
  match script.lookup (key r) with
  | some (outcome :: next :: rest) => (outcome.reply r.url, script.set (key r) (next :: rest))
  | some [outcome] => (outcome.reply r.url, script)
  | _ => (.ok notFound, script)

end Script

/-- Answers by URL, and the URLs that cannot be reached with the reason why. -/
structure Canned where
  responses : List (String × Response)
  failures : List (String × String)

/-- The reply to a request. Of several responses for one URL the last counts, and an unreachable URL
has none. -/
def Canned.reply (c : Canned) (r : Request) : Reply :=
  match c.failures.lookup r.url with
  | some reason => .error (.transport r.url reason)
  | none => .ok ((c.responses.reverse.lookup r.url).getD notFound)

end AuditTrail.Simulation
