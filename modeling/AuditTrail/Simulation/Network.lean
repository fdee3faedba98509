import AuditTrail.Simulation.Runtime
import AuditTrail.Simulation.Script

/-!
# Simulated networks

The far side of every exchange in a simulation: a script, or a runtime with how far it has come.
-/

namespace AuditTrail.Simulation

open Http (Request Reply Exchange)

/-- Who answers the requests. -/
inductive Network
  | script (outcomes : Script)
  | runtime (rt : Runtime) (progress : Progress)

namespace Network

/-- Answers a request. -/
def serve : Network → Request → Reply × Network
  | .script outcomes, r => let (reply, rest) := outcomes.serve r; (reply, .script rest)
  | .runtime rt p, r => let (reply, p) := rt.serve p r; (reply, .runtime rt p)

/-- Runs a program over a network. -/
def run {α : Type} (network : Network) (program : Exchange α) :
    α × List (Request × Reply) × Network :=
  program.against serve network

end Network

end AuditTrail.Simulation
