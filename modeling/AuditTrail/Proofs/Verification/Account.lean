import AuditTrail.Verification

/-!
# What a run of stages did

The findings of a run do not say which stages found them, nor which stages ran without finding anything. An
account does: it lists the stages that ran, in order, each with how it ended, and the stage before which the
run was found to be cancelled. Keeping it changes nothing, and

> the findings of a run are those of its account (`runAll_eq_account`).
-/

namespace AuditTrail

/-- What a run of stages did. -/
structure Account where
  /-- The stages that ran, with how they ended. -/
  ran : List (Stage × Ending (List Finding))
  /-- The stage before which the run was cancelled. -/
  cancelled : Option Stage

namespace Account

/-- The findings of the stages that ran, and the one on a cancellation. -/
def findings (a : Account) : List Finding :=
  a.ran.flatMap (fun r => r.2.findings r.1) ++ a.cancelled.toList.map Checks.cancelledBefore

/-- The account of a run that begins with a stage. -/
def after (stage : Stage) (ending : Ending (List Finding)) (a : Account) : Account :=
  { a with ran := (stage, ending) :: a.ran }

theorem findings_after (stage : Stage) (ending : Ending (List Finding)) (a : Account) :
    (a.after stage ending).findings = ending.findings stage ++ a.findings := by
  simp only [findings, after, List.flatMap_cons, List.append_assoc]

end Account

namespace Checks

section

variable {m : Type → Type} [Monad m]

/-- Runs stages one after the other and keeps an account. -/
def account (checks : Checks m) (options : VerifyOptions) (log : Log) : List Stage → m Account
  | [] => pure ⟨[], none⟩
  | stage :: rest => do
    if ← checks.isCancelled then pure ⟨[], some stage⟩
    else
      let ending ← checks.run options log stage
      if options.failFast && !(ending.findings stage).isEmpty then pure ⟨[(stage, ending)], none⟩
      else do
        let more ← checks.account options log rest
        pure (more.after stage ending)

variable [LawfulMonad m] {checks : Checks m} {options : VerifyOptions} {log : Log}

/-- **The findings of a run are those of its account.** -/
theorem runAll_eq_account (stages : List Stage) :
    checks.runAll options log stages = Account.findings <$> checks.account options log stages := by
  induction stages with
  | nil => rw [runAll, account, map_pure]; rfl
  | cons stage rest ih =>
    rw [runAll, account, map_bind]
    congr 1
    funext cancelled
    cases cancelled with
    | true => rw [if_pos rfl, if_pos rfl, map_pure]; rfl
    | false =>
      rw [if_neg Bool.false_ne_true, if_neg Bool.false_ne_true, map_bind]
      congr 1
      funext ending
      dsimp only
      split
      · simp [map_pure, Account.findings]
      · simp [ih, Account.findings_after]

/-- The verdict of a verification is the one on its account. -/
theorem verify_eq_account : checks.verify options log
    = (fun account => Verdict.ofFindings account.findings)
      <$> checks.account options log (checks.plan options) := by
  rw [verify, runAll_eq_account]
  simp

end

end Checks

end AuditTrail
