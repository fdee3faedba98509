import AuditTrail.Proofs.Verification

/-!
# What a run can come to

The pluggable stages may do anything: find whatever they like, break off, change the world the others run in,
have the run cancelled. None of this reaches past the stage itself. A run is the stages it plans, from the
first one on, each in the world that the one before left (`Checks.Through`), and there are three ways in which
it can end after one of them (`Checks.Exit`). What it finds is what these stages put out, and the one finding
on a cancellation:

> what a stage puts out is its own affair, and how far the run gets is read off it (`verify_contained`).

Nothing is asked of the schedule of cancellations. A flag that has been found set is never looked at again, so
whether it stays set makes no difference.
-/

namespace AuditTrail

namespace Checks

variable {σ : Type}

/-- The one finding of a stage that broke off. -/
def brokenOff (stage : Stage) (reason : Option String) : Finding :=
  ⟨stage, stage.name ++ " stage failed unexpectedly: " ++ reason.getD "unknown panic"⟩

/-- The finding on a replay that came to nothing. -/
def aborted (f : Failure) : Finding := ⟨.replay, "replay aborted: " ++ f.message⟩

/-- What a stage puts out when it is run, and the world it leaves. -/
inductive Outputs (checks : Checks (StateM σ)) (options : VerifyOptions) (log : Log) :
    Stage → σ → List Finding → σ → Prop
  | shape {s s' : σ} {found : List Finding} (h : checks.shape log s = (.returned found, s')) :
      Outputs checks options log .shape s found s'
  | shapeBroke {s s' : σ} {reason : Option String} (h : checks.shape log s = (.broke reason, s')) :
      Outputs checks options log .shape s [brokenOff .shape reason] s'
  | hashChain (s : σ) : Outputs checks options log .hashChain s (chainFindings log.entries) s
  | stateHash (s : σ) : Outputs checks options log .stateHash s (stateFindings log) s
  | signature {s s' : σ} {found : List Finding}
      (h : checks.signatures options.failFast log.entries s = (.returned found, s')) :
      Outputs checks options log .signature s found s'
  | signatureBroke {s s' : σ} {reason : Option String}
      (h : checks.signatures options.failFast log.entries s = (.broke reason, s')) :
      Outputs checks options log .signature s [brokenOff .signature reason] s'
  | reported {s s' : σ} {replayer : Log → Path → StateM σ (Ending (Except Failure ReplayReport))}
      {sources : Path} {report : ReplayReport} (hreplay : checks.replay = some replayer)
      (hsources : options.sources = some sources)
      (h : replayer log sources s = (.returned (.ok report), s')) :
      Outputs checks options log .replay s (report.errors.map fun message => ⟨.replay, message⟩) s'
  | aborted {s s' : σ} {replayer : Log → Path → StateM σ (Ending (Except Failure ReplayReport))}
      {sources : Path} {f : Failure} (hreplay : checks.replay = some replayer)
      (hsources : options.sources = some sources)
      (h : replayer log sources s = (.returned (.error f), s')) :
      Outputs checks options log .replay s [aborted f] s'
  | replayBroke {s s' : σ} {replayer : Log → Path → StateM σ (Ending (Except Failure ReplayReport))}
      {sources : Path} {reason : Option String} (hreplay : checks.replay = some replayer)
      (hsources : options.sources = some sources)
      (h : replayer log sources s = (.broke reason, s')) :
      Outputs checks options log .replay s [brokenOff .replay reason] s'

/-- Stages that run one after the other, each after it was seen that the run goes on, with what they put
out. -/
inductive Through (checks : Checks (StateM σ)) (options : VerifyOptions) (log : Log) :
    σ → List (Stage × List Finding) → σ → Prop
  | start (s : σ) : Through checks options log s [] s
  | next {s s₁ s₂ s₃ : σ} {stage : Stage} {found : List Finding} {ran : List (Stage × List Finding)}
      (hgo : checks.isCancelled s = (false, s₁)) (houtputs : Outputs checks options log stage s₁ found s₂)
      (hrest : Through checks options log s₂ ran s₃) :
      Through checks options log s ((stage, found) :: ran) s₃

/-- How a run of planned stages ends after those that ran, and what is added to what they put out: nothing is
left to run, or the last one found something and the run was to stop there, or it was cancelled before the
next one. -/
inductive Exit (checks : Checks (StateM σ)) (options : VerifyOptions) (plan : List Stage)
    (ran : List (Stage × List Finding)) (s : σ) : List Finding → σ → Prop
  | finished (hall : ran.map Prod.fst = plan) : Exit checks options plan ran s [] s
  | stopped {last : Stage × List Finding} (hfast : options.failFast = true)
      (hlast : ran.getLast? = some last) (hfound : last.2 ≠ []) : Exit checks options plan ran s [] s
  | cancelled {s' : σ} (stage : Stage) (hnext : ran.map Prod.fst ++ [stage] <+: plan)
      (hflag : checks.isCancelled s = (true, s')) :
      Exit checks options plan ran s [cancelledBefore stage] s'

/-- A run of planned stages: those that ran, how it ended after them, and what it found. -/
structure Course (checks : Checks (StateM σ)) (options : VerifyOptions) (log : Log) (plan : List Stage)
    (s : σ) (ran : List (Stage × List Finding)) (reached : σ) (added : List Finding)
    (found : List Finding) (s' : σ) : Prop where
  through : checks.Through options log s ran reached
  exit : checks.Exit options plan ran reached added s'
  /-- The stages that ran are the first ones of the plan. -/
  order : ran.map Prod.fst <+: plan
  findings : found = ran.flatMap Prod.snd ++ added
  /-- A run that is to stop at the first finding has none before its last stage. -/
  quiet : options.failFast = true → ∀ r ∈ ran.dropLast, r.2 = []

variable {checks : Checks (StateM σ)} {options : VerifyOptions} {log : Log} {plan : List Stage}
  {stage : Stage}

/-! ## One stage -/

theorem replays_iff : checks.replays options = true
    ↔ ∃ replayer sources, checks.replay = some replayer ∧ options.sources = some sources := by
  unfold replays
  rw [Bool.and_eq_true, Option.isSome_iff_exists, Option.isSome_iff_exists, exists_and_exists_comm]

theorem outputs_replay (hreplays : checks.replays options = true) (s : σ) :
    checks.Outputs options log .replay s ((checks.run options log .replay s).1.findings .replay)
      (checks.run options log .replay s).2 := by
  obtain ⟨replayer, sources, hreplay, hsources⟩ := replays_iff.mp hreplays
  unfold run
  rw [hreplay, hsources]
  dsimp only
  rw [bind_run, pure_run]
  cases hended : replayer log sources s with
  | mk ending s' =>
    cases ending with
    | broke reason => exact .replayBroke hreplay hsources hended
    | returned outcome =>
      cases outcome with
      | error f => exact .aborted hreplay hsources hended
      | ok report => exact .reported hreplay hsources hended

/-- Whatever a planned stage does, it puts out something and leaves a world. -/
theorem outputs_run (hplanned : stage = .replay → checks.replays options = true) (s : σ) :
    checks.Outputs options log stage s ((checks.run options log stage s).1.findings stage)
      (checks.run options log stage s).2 := by
  cases stage with
  | shape =>
    show checks.Outputs options log .shape s ((checks.shape log s).1.findings .shape) (checks.shape log s).2
    cases hended : checks.shape log s with
    | mk ending s' =>
      cases ending with
      | returned found => exact .shape hended
      | broke reason => exact .shapeBroke hended
  | hashChain => exact .hashChain s
  | stateHash => exact .stateHash s
  | signature =>
    show checks.Outputs options log .signature s
      ((checks.signatures options.failFast log.entries s).1.findings .signature)
      (checks.signatures options.failFast log.entries s).2
    cases hended : checks.signatures options.failFast log.entries s with
    | mk ending s' =>
      cases ending with
      | returned found => exact .signature hended
      | broke reason => exact .signatureBroke hended
  | replay => exact outputs_replay (hplanned rfl) s

/-! ## One stage after the other -/

/-- A stage in front of a run that goes on after it. -/
theorem Course.after {rest : List Stage} {s s₁ s₂ s₃ : σ} {ran : List (Stage × List Finding)} {reached : σ}
    {output added found : List Finding}
    (h : checks.Course options log rest s₂ ran reached added found s₃)
    (hgo : checks.isCancelled s = (false, s₁)) (houtputs : checks.Outputs options log stage s₁ output s₂)
    (hquiet : options.failFast = true → output = []) :
    checks.Course options log (stage :: rest) s ((stage, output) :: ran) reached added (output ++ found)
      s₃ where
  through := .next hgo houtputs h.through
  exit := by
    cases h.exit with
    | finished hall => exact .finished (congrArg (List.cons stage) hall)
    | stopped hfast hlast hfound =>
      refine .stopped hfast ?_ hfound
      rw [List.getLast?_cons, hlast]
      rfl
    | cancelled next hnext hflag => exact .cancelled next (List.prefix_cons_inj stage |>.mpr hnext) hflag
  order := List.prefix_cons_inj stage |>.mpr h.order
  findings := by rw [h.findings, List.flatMap_cons, List.append_assoc]
  quiet := by
    intro hfast r hr
    cases ran with
    | nil => exact absurd hr List.not_mem_nil
    | cons first others =>
      rcases List.mem_cons.mp hr with rfl | hr
      · exact hquiet hfast
      · exact h.quiet hfast r hr

/-- **Every run takes such a course**: one more stage in front either ends it or leaves it as it was. -/
theorem exists_course (plan : List Stage) (hplanned : .replay ∈ plan → checks.replays options = true)
    (s : σ) :
    ∃ ran reached added, checks.Course options log plan s ran reached added
      (checks.runAll options log plan s).1 (checks.runAll options log plan s).2 := by
  induction plan generalizing s with
  | nil =>
    exact ⟨[], s, [], .start s, .finished rfl, List.prefix_refl _, rfl, fun _ _ hr => absurd hr (by simp)⟩
  | cons stage rest ih =>
    rw [runAll, bind_run]
    cases hflag : checks.isCancelled s with
    | mk flag s₁ =>
      cases flag with
      | true =>
        refine ⟨[], s, [cancelledBefore stage], .start s, .cancelled stage ?_ hflag, List.nil_prefix, rfl,
          fun _ _ hr => absurd hr (by simp)⟩
        exact List.prefix_append [stage] rest
      | false =>
        have houtputs := @outputs_run _ checks options log stage
          (fun heq => hplanned (heq ▸ List.mem_cons_self)) s₁
        dsimp only
        rw [if_neg Bool.false_ne_true, bind_run]
        generalize hran : checks.run options log stage s₁ = ended at houtputs
        obtain ⟨ending, s₂⟩ := ended
        dsimp only at houtputs ⊢
        by_cases hstop : (options.failFast && !(ending.findings stage).isEmpty) = true
        · rw [if_pos hstop, pure_run]
          simp only [Bool.and_eq_true, Bool.not_eq_true', List.isEmpty_eq_false_iff] at hstop
          refine ⟨[(stage, ending.findings stage)], s₂, [], .next hflag houtputs (.start s₂),
            .stopped hstop.1 rfl hstop.2, List.prefix_append [stage] rest, by simp,
            fun _ _ hr => absurd hr (by simp)⟩
        · rw [if_neg hstop, bind_run, pure_run]
          simp only [Bool.and_eq_true, Bool.not_eq_true', List.isEmpty_eq_false_iff, not_and,
            not_not] at hstop
          obtain ⟨ran, reached, added, hcourse⟩ := ih (fun hmem => hplanned (List.mem_cons_of_mem _ hmem)) s₂
          exact ⟨_, reached, added, hcourse.after hflag houtputs hstop⟩

/-- What its stages find does not keep a run from the end of its plan, unless it is to stop there. -/
theorem Course.ran_eq {s : σ} {ran : List (Stage × List Finding)} {reached : σ} {added found : List Finding}
    {s' : σ} (h : checks.Course options log plan s ran reached added found s')
    (hslow : options.failFast = false) :
    ran.map Prod.fst = plan ∨ (checks.isCancelled reached).1 = true := by
  cases h.exit with
  | finished hall => exact Or.inl hall
  | stopped hfast hlast hfound => exact absurd (hslow.symm.trans hfast) Bool.false_ne_true
  | cancelled stage hnext hflag => exact Or.inr (congrArg Prod.fst hflag)

theorem replay_mem_plan (h : .replay ∈ checks.plan options) : checks.replays options = true := by
  rw [plan_eq] at h
  cases hreplays : checks.replays options with
  | true => rfl
  | false => simp [hreplays] at h

theorem nodup_plan (checks : Checks (StateM σ)) (options : VerifyOptions) : (checks.plan options).Nodup := by
  rw [plan_eq]
  cases checks.replays options <;> decide

end Checks

/-- **No stage reaches past itself.** The plan is the four stages, and the replay where there is one and
sources for it. The run takes a course through it, on which each stage is run at most once; it takes the whole
of it if it is not to stop early, unless it is found to be cancelled. -/
theorem verify_contained {σ : Type} (checks : Checks (StateM σ)) (options : VerifyOptions) (log : Log)
    (s : σ) :
    let ended := checks.verify options log s
    let plan := checks.plan options
    plan = [.shape, .hashChain, .stateHash, .signature]
        ++ (if (checks.replay.isSome && options.sources.isSome) = true then [.replay] else [])
      ∧ (ended.1.success = true ↔ ended.1.findings = [])
      ∧ ∃ ran reached added,
        checks.Course options log plan s ran reached added ended.1.findings ended.2
          ∧ (ran.map Prod.fst).Nodup
          ∧ (options.failFast = false →
              ran.map Prod.fst = plan ∨ (checks.isCancelled reached).1 = true) := by
  intro ended plan
  obtain ⟨ran, reached, added, hcourse⟩ :=
    Checks.exists_course (checks.plan options) (fun hmem => Checks.replay_mem_plan hmem) s
  refine ⟨Checks.plan_eq checks options, success_ofFindings, ran, reached, added, hcourse, ?_, hcourse.ran_eq⟩
  exact (Checks.nodup_plan checks options).sublist hcourse.order.sublist

/-- Stages of which the first breaks off and has the run cancelled: the second is not run. -/
example : ((⟨fun _ runs => (.broke none, runs + 1), fun _ _ runs => (.returned [], runs + 1), none,
    fun runs => (decide (0 < runs), runs)⟩ : Checks (StateM Nat)).verify ⟨false, none⟩ ⟨[], .null⟩ 0)
      = (⟨false, [Checks.brokenOff .shape none, Checks.cancelledBefore .hashChain]⟩, 1) := rfl

end AuditTrail
