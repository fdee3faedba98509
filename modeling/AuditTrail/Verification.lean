import AuditTrail.Did.Resolver
import AuditTrail.Files.Path
import AuditTrail.Log.Chain
import AuditTrail.Log.Structure
import AuditTrail.Signature.Check

/-!
# Verifying a log

A verification runs its stages in a fixed order and joins their findings. The order is
`Stage.all`: the replay comes last, so that it only ever speaks about a log whose integrity has been
reported on. Three of the stages are pluggable (`Checks`), and each of these may break off; what is
left of a stage that broke off is one finding. With `failFast` the first stage that finds anything is
the last one to run, and a cancelled run stops before its next stage.

The stages run in any monad, so the same definition serves runs over a network, runs against scripts
and runs that are pure functions.
-/

namespace AuditTrail

/-- How a stage ends: with a result, or before it has one, possibly with a text that says why. -/
inductive Ending (α : Type)
  | returned (result : α)
  | broke (reason : Option String)
  deriving DecidableEq, Repr

/-- The same ending with another result. -/
def Ending.map {α β : Type} (f : α → β) : Ending α → Ending β
  | .returned a => .returned (f a)
  | .broke reason => .broke reason

/-- The findings of a stage. A stage that broke off has one finding. -/
def Ending.findings (stage : Stage) : Ending (List Finding) → List Finding
  | .returned found => found
  | .broke reason =>
    [⟨stage, stage.name ++ " stage failed unexpectedly: " ++ reason.getD "unknown panic"⟩]

/-- The findings of a replay: one for each message of its report, or one if there is no report. -/
def replayFindings : Except Failure ReplayReport → List Finding
  | .ok report => report.errors.map fun message => ⟨.replay, message⟩
  | .error f => [⟨.replay, "replay aborted: " ++ f.message⟩]

/-- What a verification is asked to do. -/
structure VerifyOptions where
  /-- Whether to stop after the first stage that finds anything. -/
  failFast : Bool
  /-- The protocol sources to replay the log with, if it is to be replayed. -/
  sources : Option Path
  deriving DecidableEq, Repr

/-- The pluggable stages, and whether the run has been cancelled. -/
structure Checks (m : Type → Type) where
  shape : Log → m (Ending (List Finding))
  signatures : (failFast : Bool) → List Entry → m (Ending (List Finding))
  replay : Option (Log → Path → m (Ending (Except Failure ReplayReport)))
  isCancelled : m Bool

namespace Checks

variable {m : Type → Type} [Monad m]

/-- Whether the replay takes place. -/
def replays (checks : Checks m) (options : VerifyOptions) : Bool :=
  checks.replay.isSome && options.sources.isSome

/-- The stages that are to run, in order. -/
def plan (checks : Checks m) (options : VerifyOptions) : List Stage :=
  Stage.all.filter fun stage => stage != .replay || checks.replays options

/-- Runs one stage. -/
def run (checks : Checks m) (options : VerifyOptions) (log : Log) :
    Stage → m (Ending (List Finding))
  | .shape => checks.shape log
  | .hashChain => pure (.returned (chainFindings log.entries))
  | .stateHash => pure (.returned (stateFindings log))
  | .signature => checks.signatures options.failFast log.entries
  | .replay =>
    match checks.replay, options.sources with
    | some replay, some sources => do
      let ending ← replay log sources
      pure (ending.map replayFindings)
    | _, _ => pure (.returned [])

/-- The finding that a run was cancelled before a stage. -/
def cancelledBefore (stage : Stage) : Finding := ⟨stage, "verification cancelled before this stage"⟩

/-- Runs stages one after the other and joins their findings. -/
def runAll (checks : Checks m) (options : VerifyOptions) (log : Log) :
    List Stage → m (List Finding)
  | [] => pure []
  | stage :: rest => do
    if ← checks.isCancelled then pure [cancelledBefore stage]
    else
      let ending ← checks.run options log stage
      let found := ending.findings stage
      if options.failFast && !found.isEmpty then pure found
      else do
        let more ← checks.runAll options log rest
        pure (found ++ more)

/-- Verifies a log. -/
def verify (checks : Checks m) (options : VerifyOptions) (log : Log) : m Verdict := do
  let found ← checks.runAll options log (checks.plan options)
  pure (.ofFindings found)

end Checks

/-! ## The stages as they are -/

section

variable {m : Type → Type} [Monad m]

/-- The structure stage. -/
def checkStructure (log : Log) : m (Ending (List Finding)) :=
  pure (.returned (structureFindings log))

/-- The signature stage for a way to find documents. -/
def checkSignatures (scheme : Signature.Scheme) (resolve : Signature.Resolver m) (failFast : Bool)
    (entries : List Entry) : m (Ending (List Finding)) := do
  let found ← Signature.proofFindings scheme resolve failFast entries
  pure (.returned found)

/-- The stages without a replay, none of which breaks off or is cancelled. -/
def Checks.ofResolver (scheme : Signature.Scheme) (resolve : Signature.Resolver m) : Checks m :=
  ⟨checkStructure, checkSignatures scheme resolve, none, pure false⟩

/-- The same stages with a replay that never breaks off. -/
def Checks.withReplay (checks : Checks m)
    (replay : Log → Path → m (Except Failure ReplayReport)) : Checks m :=
  { checks with
    replay := some fun log sources => do
      let report ← replay log sources
      pure (.returned report) }

end

/-- Finds documents over the network, and keeps those that were found. -/
def Did.resolver (settings : Did.Settings) : Signature.Resolver (StateT Did.Cache Http.Exchange) :=
  fun did cache => Did.resolve settings cache did

end AuditTrail
