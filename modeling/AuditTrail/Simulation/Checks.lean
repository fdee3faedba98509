import AuditTrail.Verification

/-!
# Scripted stages

Stages whose endings are fixed beforehand. Each writes a line when it is entered and may cancel the
run, which then stops before the stage that follows.
-/

namespace AuditTrail.Simulation

/-- What a run of scripted stages leaves behind. -/
structure Trace where
  cancelled : Bool
  /-- The lines of the scripted stages that were entered, in order. -/
  calls : List String
  deriving DecidableEq, Repr

/-- A stage whose ending is fixed. -/
structure ScriptedCheck (α : Type) where
  /-- Whether entering the stage cancels the run. -/
  cancels : Bool
  ending : Ending α

/-- Enters a scripted stage. -/
def ScriptedCheck.enter {α : Type} {m : Type → Type} [Monad m] (check : ScriptedCheck α)
    (line : String) : StateT Trace m (Ending α) := do
  modify fun trace => ⟨trace.cancelled || check.cancels, trace.calls ++ [line]⟩
  pure check.ending

/-- The line of the structure stage. -/
def structureLine (log : Log) : String :=
  "structure entries=" ++ Number.decimal log.entries.length

/-- The line of the signature stage. -/
def signaturesLine (failFast : Bool) (entries : List Entry) : String :=
  "signatures entries=" ++ Number.decimal entries.length ++ " fail_fast="
    ++ (if failFast then "true" else "false")

/-- The line of the replay stage. -/
def replayLine (log : Log) (sources : Path) : String :=
  "replay entries=" ++ Number.decimal log.entries.length ++ " sources=" ++ sources.text

/-- Stages in which some are scripted; a stage without a script is the given one. -/
def scriptedChecks {m : Type → Type} [Monad m] (checks : Checks m)
    (onStructure onSignatures : Option (ScriptedCheck (List Finding)))
    (onReplay : Option (ScriptedCheck (Except Failure ReplayReport))) :
    Checks (StateT Trace m) where
  shape log :=
    match onStructure with
    | some check => check.enter (structureLine log)
    | none => StateT.lift (checks.shape log)
  signatures failFast entries :=
    match onSignatures with
    | some check => check.enter (signaturesLine failFast entries)
    | none => StateT.lift (checks.signatures failFast entries)
  replay :=
    match onReplay with
    | some check => some fun log sources => check.enter (replayLine log sources)
    | none => checks.replay.map fun replay log sources => StateT.lift (replay log sources)
  isCancelled := do
    let trace ← get
    let cancelled ← StateT.lift checks.isCancelled
    pure (trace.cancelled || cancelled)

end AuditTrail.Simulation
