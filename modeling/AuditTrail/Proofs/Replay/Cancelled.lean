import AuditTrail.Proofs.Http.Client
import AuditTrail.Proofs.Replay.Run

/-!
# Cancelled replays

A call that is cancelled is the end of a replay. It is enough to see this of one call: what is made of calls
passes their failures on (`Compositional`).

> The first request that is refused for a cancellation is the last one of a replay (`replayWith_cancelled`),
> and a replay that begins cancelled sends nothing (`replayWith_of_cancelled`).
-/

namespace AuditTrail.Replay

open Http (Client Exchange Reply Request)
open Http.Exchange (Generates HeedsCancellation)

theorem heedsCancellation_callWith (request : Request) (attempts : List Attempt) :
    (callWith request attempts).HeedsCancellation := by
  induction attempts with
  | nil => trivial
  | cons attempt rest ih =>
    rw [callWith_cons]
    refine ⟨rfl, fun reply => ?_⟩
    show (if refused reply then callWith request rest else pure (settled request reply)).HeedsCancellation
    split
    · exact ih
    · trivial

theorem compositional_heedsCancellation : Compositional HeedsCancellation where
  call := heedsCancellation_callWith
  result := fun _ => trivial
  bind := HeedsCancellation.bind

variable (baseUrl : String) (log : Log) (tokens : PartyTokens) (hints : PartyHints)

theorem heedsCancellation_replayWith : (replayWith baseUrl log tokens hints).HeedsCancellation := by
  unfold replayWith
  split
  · trivial
  · exact compositional_heedsCancellation.map (compositional_heedsCancellation.visitAll _ _ _ _) report

/-- **A replay ends with its cancellation.** No request follows the one that was refused for it, and there is
no report. -/
theorem replayWith_cancelled {before after : List (Request × Reply)} {request : Request}
    {outcome : Except Failure ReplayReport}
    (h : Generates (replayWith baseUrl log tokens hints) (before ++ (request, .error .cancelled) :: after)
      outcome) : after = [] ∧ outcome = .error .cancelled :=
  (heedsCancellation_replayWith baseUrl log tokens hints).last_of_generates h

/-- In a cancelled run a replay leaves everything as it is. It is cancelled, unless it would have sent nothing
anyway. -/
theorem replayWith_of_cancelled {σ : Type} {client : Client (StateM σ)} {s : σ}
    (h : client.isCancelled s = (true, s)) :
    let ended := (replayWith baseUrl log tokens hints).run client.send s
    ended.2 = s
      ∧ (ended.1 = .error .cancelled ∨ ∃ outcome, replayWith baseUrl log tokens hints = pure outcome) := by
  intro ended
  refine ⟨Client.run_of_cancelled h _, ?_⟩
  exact ((heedsCancellation_replayWith baseUrl log tokens hints).run_of_cancelled h).imp_left
    fun heq => congrArg Prod.fst heq

end AuditTrail.Replay
