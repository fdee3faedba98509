import AuditTrail.Http.Client
import AuditTrail.Proofs.Http.Exchange

/-!
# Clients of cancelled runs

A client of a cancelled run answers every request itself. So whatever a program does from then on,
nothing is sent (`Client.run_of_cancelled`).

Whether the program goes on asking is another matter. One that heeds a cancellation
(`HeedsCancellation`) ends with the first request that is refused for it, and with no other result
than that it was cancelled (`HeedsCancellation.last_of_generates`).
-/

namespace AuditTrail.Http

variable {α β σ : Type}

namespace Client

variable {client : Client (StateM σ)} {s : σ}

theorem send_of_cancelled (h : client.isCancelled s = (true, s)) (r : Request) :
    client.send r s = (.error .cancelled, s) := by
  show (if (client.isCancelled s).1 then pure (.error .cancelled) else client.exchange r : StateM σ Reply)
    (client.isCancelled s).2 = _
  rw [h, if_pos rfl]
  rfl

/-- **Nothing is sent for a cancelled run.** -/
theorem run_of_cancelled (h : client.isCancelled s = (true, s)) (program : Exchange α) :
    (program.run client.send s).2 = s := by
  induction program with
  | done a => rfl
  | ask r next ih =>
    show ((next (client.send r s).1).run client.send (client.send r s).2).2 = s
    rw [send_of_cancelled h]
    exact ih _

theorem send_of_uncancelled (h : client.isCancelled = pure false) : client.send = client.exchange := by
  funext r
  unfold send
  rw [h]
  rfl

/-- A client of a run that is never cancelled leaves it all to the exchange. -/
theorem run_of_uncancelled (h : client.isCancelled = pure false) (program : Exchange α) :
    program.run client.send = program.run client.exchange := by
  rw [send_of_uncancelled h]

end Client

namespace Exchange

/-- Wherever a program is told that it was cancelled, it ends with that. -/
def HeedsCancellation : Exchange (Except Failure α) → Prop
  | .done _ => True
  | .ask _ next => next (.error .cancelled) = .done (.error .cancelled)
      ∧ ∀ reply, (next reply).HeedsCancellation

namespace HeedsCancellation

theorem bind {x : Exchange (Except Failure α)} {next : Except Failure α → Exchange (Except Failure β)}
    (hx : x.HeedsCancellation) (herror : ∀ f, next (.error f) = pure (.error f))
    (hok : ∀ a, (next (.ok a)).HeedsCancellation) : (x >>= next).HeedsCancellation := by
  induction x with
  | done outcome =>
    cases outcome with
    | error f =>
      show (next (.error f)).HeedsCancellation
      rw [herror]
      trivial
    | ok a => exact hok a
  | ask r more ih =>
    refine ⟨?_, fun reply => ih reply (hx.2 reply)⟩
    show (more (.error .cancelled)).bind next = _
    rw [hx.1]
    exact herror .cancelled

/-- **A program that heeds a cancellation ends with it**: nothing is sent after it, whoever replies. -/
theorem last_of_generates {x : Exchange (Except Failure α)} (hx : x.HeedsCancellation)
    {before after : List (Request × Reply)} {r : Request} {outcome : Except Failure α}
    (h : Generates x (before ++ (r, .error .cancelled) :: after) outcome) :
    after = [] ∧ outcome = .error .cancelled := by
  induction before generalizing x with
  | nil =>
    cases h with
    | ask reply rest =>
      rw [hx.1] at rest
      cases rest
      exact ⟨rfl, rfl⟩
  | cons first before ih =>
    cases h with
    | ask reply rest => exact ih (hx.2 reply) rest

/-- In a cancelled run, such a program is cancelled, unless there is nothing that it would send. -/
theorem run_of_cancelled {x : Exchange (Except Failure α)} (hx : x.HeedsCancellation)
    {client : Client (StateM σ)} {s : σ} (h : client.isCancelled s = (true, s)) :
    x.run client.send s = (.error .cancelled, s) ∨ ∃ outcome, x = pure outcome := by
  cases x with
  | done outcome => exact Or.inr ⟨outcome, rfl⟩
  | ask r next =>
    left
    show (next (client.send r s).1).run client.send (client.send r s).2 = _
    rw [Client.send_of_cancelled h, hx.1]
    rfl

end HeedsCancellation

end Exchange

end AuditTrail.Http
