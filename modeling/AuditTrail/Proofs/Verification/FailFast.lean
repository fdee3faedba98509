import AuditTrail.Proofs.Signature.Outcomes
import AuditTrail.Proofs.Verification
import AuditTrail.Proofs.Verification.Account

/-!
# What stopping early leaves out

A run that stops at the first finding is the beginning of the run that does not. Up to the first stage that
finds anything the two cannot be told apart; there one of them ends, and of the proofs it has checked no more
than up to the first bad one (`Stage.cut`).

The two runs begin in states that need not be the same, as long as the resolver and the replay answer the
same in both (`BlindTo`). That is all that is asked of them, and it has to be carried along only until
something is found: after that there is nothing to compare.

> What a run finds that stops early is the beginning of what there is to find, it is nothing only if there is
> nothing, and no stage after the first one that finds anything is run (`failFast_truncates`).
-/

namespace AuditTrail

open Signature (Scheme Resolver FirstFailing outcomes findingsOn proofFinding proofFindings proofFindings_all
  proofFindings_first firstFailing_of_findingsOn)

/-! ## Findings that are left -/

/-- What is left of the findings of a stage at which a run stops early: of the proofs, only the first. -/
def Stage.cut (stage : Stage) (found : List Finding) : List Finding :=
  if stage = .signature then found.take 1 else found

theorem Stage.cut_prefix (stage : Stage) (found : List Finding) : stage.cut found <+: found := by
  unfold cut
  split
  · exact List.take_prefix 1 found
  · exact List.prefix_refl found

theorem Stage.cut_eq_nil {stage : Stage} {found : List Finding} : stage.cut found = [] ↔ found = [] := by
  unfold cut
  split
  · simp
  · rfl

namespace Checks

variable {σ : Type} {checks : Checks (StateM σ)} {sources : Option Path} {log : Log} {R : σ → σ → Prop}

/-! ## One stage after the other -/

/-- The stages of two runs, one of which is to stop early: the findings of the one are cut from those of the
other, and where there are none the runs cannot be told apart. -/
structure Cuts (checks : Checks (StateM σ)) (R : σ → σ → Prop) (sources : Option Path) (log : Log) :
    Prop where
  uncancelled : checks.isCancelled = pure false
  findings : ∀ stage s t, R s t → (checks.run ⟨true, sources⟩ log stage s).1.findings stage
    = stage.cut ((checks.run ⟨false, sources⟩ log stage t).1.findings stage)
  quiet : ∀ stage s t, R s t → (checks.run ⟨false, sources⟩ log stage t).1.findings stage = [] →
    (checks.run ⟨true, sources⟩ log stage s).1 = (checks.run ⟨false, sources⟩ log stage t).1
      ∧ R (checks.run ⟨true, sources⟩ log stage s).2 (checks.run ⟨false, sources⟩ log stage t).2

section

variable {options : VerifyOptions} {stage : Stage} {rest : List Stage} {s : σ}

theorem account_stop (huncancelled : checks.isCancelled = pure false) (hfast : options.failFast = true)
    (hfound : (checks.run options log stage s).1.findings stage ≠ []) :
    checks.account options log (stage :: rest) s
      = (⟨[(stage, (checks.run options log stage s).1)], none⟩, (checks.run options log stage s).2) := by
  rw [account, huncancelled, bind_run, pure_run]
  dsimp only
  rw [if_neg Bool.false_ne_true, bind_run, if_pos (by simp [hfast, hfound])]
  rfl

theorem account_go (huncancelled : checks.isCancelled = pure false)
    (hgo : options.failFast = true → (checks.run options log stage s).1.findings stage = []) :
    checks.account options log (stage :: rest) s
      = let ended := checks.run options log stage s
        let more := checks.account options log rest ended.2
        (more.1.after stage ended.1, more.2) := by
  rw [account, huncancelled, bind_run, pure_run]
  dsimp only
  rw [if_neg Bool.false_ne_true, bind_run, if_neg]
  · rfl
  · simpa using hgo

end

/-- A run that is not to stop early goes on after every stage. -/
theorem account_go_on (huncancelled : checks.isCancelled = pure false) (stage : Stage) (rest : List Stage)
    (t : σ) : checks.account ⟨false, sources⟩ log (stage :: rest) t
      = let ended := checks.run ⟨false, sources⟩ log stage t
        let more := checks.account ⟨false, sources⟩ log rest ended.2
        (more.1.after stage ended.1, more.2) :=
  account_go huncancelled fun hfast => absurd hfast Bool.false_ne_true

/-- So it runs them all. -/
theorem account_all (huncancelled : checks.isCancelled = pure false) (stages : List Stage) (t : σ) :
    (checks.account ⟨false, sources⟩ log stages t).1.ran.map Prod.fst = stages
      ∧ (checks.account ⟨false, sources⟩ log stages t).1.cancelled = none := by
  induction stages generalizing t with
  | nil => exact ⟨rfl, rfl⟩
  | cons stage rest ih =>
    rw [account_go_on huncancelled]
    obtain ⟨hran, hcancelled⟩ := ih (checks.run ⟨false, sources⟩ log stage t).2
    exact ⟨congrArg (List.cons stage) hran, hcancelled⟩

/-- A run that stops early, compared with the account of one that does not: the stages before the one at
which it stops, that stage with how it ended in the other run, and the stages it leaves out. -/
structure StopsAt (checks : Checks (StateM σ)) (sources : Option Path) (log : Log) (stages : List Stage)
    (s : σ) (full : Account) (before : List (Stage × Ending (List Finding))) (stage : Stage)
    (ending : Ending (List Finding)) (after : List (Stage × Ending (List Finding))) : Prop where
  ran : full.ran = before ++ (stage, ending) :: after
  quiet : ∀ r ∈ before, r.2.findings r.1 = []
  found : ending.findings stage ≠ []
  /-- It ran the stages before, and this one last. -/
  stopped : ∃ last, (checks.account ⟨true, sources⟩ log stages s).1 = ⟨before ++ [(stage, last)], none⟩
    ∧ last.findings stage = stage.cut (ending.findings stage)
  /-- It is the run of these stages alone. -/
  alone : checks.account ⟨true, sources⟩ log stages s
    = checks.account ⟨true, sources⟩ log (before.map Prod.fst ++ [stage]) s

/-- After a stage that found nothing, a run stops where the rest of it stops. -/
theorem StopsAt.after_quiet {first stage : Stage} {rest : List Stage} {s s' : σ} {full : Account}
    {before after : List (Stage × Ending (List Finding))} {ended ending : Ending (List Finding)}
    (h : checks.StopsAt sources log rest s' full before stage ending after)
    (hquiet : ended.findings first = [])
    (hgo : ∀ stages, checks.account ⟨true, sources⟩ log (first :: stages) s
      = ((checks.account ⟨true, sources⟩ log stages s').1.after first ended,
        (checks.account ⟨true, sources⟩ log stages s').2)) :
    checks.StopsAt sources log (first :: rest) s (full.after first ended) ((first, ended) :: before) stage
      ending after := by
  obtain ⟨last, hstopped, hlast⟩ := h.stopped
  refine ⟨congrArg (List.cons _) h.ran, List.forall_mem_cons.mpr ⟨hquiet, h.quiet⟩, h.found,
    ⟨last, ?_, hlast⟩, ?_⟩
  · rw [hgo, hstopped]
    rfl
  · rw [List.map_cons, List.cons_append, hgo, hgo, h.alone]

/-- **Two runs go together until one stops**: at the first stage that finds anything, or nowhere if there is
none. -/
theorem Cuts.account (h : checks.Cuts R sources log) (stages : List Stage) {s t : σ} (hstates : R s t) :
    ((checks.account ⟨false, sources⟩ log stages t).1.findings = []
        ∧ (checks.account ⟨true, sources⟩ log stages s).1
          = (checks.account ⟨false, sources⟩ log stages t).1)
      ∨ ∃ before stage ending after, checks.StopsAt sources log stages s
        (checks.account ⟨false, sources⟩ log stages t).1 before stage ending after := by
  induction stages generalizing s t with
  | nil => exact Or.inl ⟨rfl, rfl⟩
  | cons stage rest ih =>
    have hcut := h.findings stage s t hstates
    have hsame := h.quiet stage s t hstates
    rw [account_go_on h.uncancelled]
    dsimp only
    by_cases hquiet : (checks.run ⟨false, sources⟩ log stage t).1.findings stage = []
    · obtain ⟨hending, hafter⟩ := hsame hquiet
      -- The stage found nothing in either run, so both go on.
      have hgo : ∀ more, checks.account ⟨true, sources⟩ log (stage :: more) s = _ :=
        fun more => account_go h.uncancelled fun _ => hending ▸ hquiet
      dsimp only at hgo
      rw [hending] at hgo
      rcases ih hafter with ⟨hnothing, hrest⟩ | ⟨before, last, ending, after, hstops⟩
      · refine Or.inl ⟨?_, ?_⟩
        · rw [Account.findings_after, hquiet, hnothing]
          rfl
        · rw [hgo, hrest]
      · exact Or.inr ⟨_, last, ending, after, hstops.after_quiet hquiet hgo⟩
    · have hstop : ∀ more, checks.account ⟨true, sources⟩ log (stage :: more) s = _ :=
        fun more => account_stop h.uncancelled rfl (hcut ▸ mt Stage.cut_eq_nil.mp hquiet)
      exact Or.inr ⟨[], stage, _, _, rfl, nofun, hquiet, ⟨_, by rw [hstop]; rfl, hcut⟩,
        by rw [hstop]; exact (hstop []).symm⟩

/-- How a stage ended in a run of all stages is how it ends in some state. -/
theorem ended_of_mem_ran (huncancelled : checks.isCancelled = pure false) {stages : List Stage} {t : σ}
    {r : Stage × Ending (List Finding)}
    (h : r ∈ (checks.account ⟨false, sources⟩ log stages t).1.ran) :
    ∃ u, r.2 = (checks.run ⟨false, sources⟩ log r.1 u).1 := by
  induction stages generalizing t with
  | nil => exact absurd h List.not_mem_nil
  | cons stage rest ih =>
    rw [account_go_on huncancelled] at h
    rcases List.mem_cons.mp h with rfl | h
    · exact ⟨t, rfl⟩
    · exact ih h

/-! ## The stages as they are -/

/-- The stages as they are, with a replay that may break off, if there is one. -/
def answering (scheme : Scheme) (resolve : Resolver (StateM σ))
    (replay : Option (Log → Path → StateM σ (Ending (Except Failure ReplayReport)))) : Checks (StateM σ) :=
  { Checks.ofResolver scheme resolve with replay := replay }

section

variable {scheme : Scheme} {resolve : Resolver (StateM σ)}
  {replay : Option (Log → Path → StateM σ (Ending (Except Failure ReplayReport)))}

theorem blindTo_replay {options : VerifyOptions}
    (hreplay : ∀ replayer, replay = some replayer → ∀ log sources, BlindTo R (replayer log sources)) :
    BlindTo R ((answering scheme resolve replay).run options log .replay) := by
  unfold run answering
  dsimp only
  split
  · rename_i replayer sources _
    exact (hreplay replayer rfl log sources).bind fun _ => blindTo_pure _
  · exact blindTo_pure _

/-- The option to stop early matters to the stage of the proofs alone. -/
theorem cuts_answering (hresolve : ∀ did, BlindTo R (resolve did))
    (hreplay : ∀ replayer, replay = some replayer → ∀ log sources, BlindTo R (replayer log sources)) :
    (answering scheme resolve replay).Cuts R sources log where
  uncancelled := rfl
  findings := by
    intro stage s t hstates
    cases stage with
    | shape => rfl
    | hashChain => rfl
    | stateHash => rfl
    | signature => exact (proofFindings_first hresolve log.entries hstates).1
    | replay => exact congrArg (Ending.findings .replay) (blindTo_replay hreplay s t hstates).1
  quiet := by
    intro stage s t hstates hquiet
    cases stage with
    | shape => exact ⟨rfl, hstates⟩
    | hashChain => exact ⟨rfl, hstates⟩
    | stateHash => exact ⟨rfl, hstates⟩
    | signature =>
      have hnone : (proofFindings scheme resolve false log.entries t).1 = [] := hquiet
      obtain ⟨hfirst, hafter⟩ := proofFindings_first hresolve log.entries hstates
      have hsame : (proofFindings scheme resolve true log.entries s).1
          = (proofFindings scheme resolve false log.entries t).1 := by
        rw [hfirst, hnone]
        rfl
      exact ⟨congrArg Ending.returned hsame, hafter hnone⟩
    | replay => exact blindTo_replay hreplay s t hstates

theorem stage_of_mem_replayFindings {ending : Ending (Except Failure ReplayReport)} {finding : Finding}
    (h : finding ∈ (ending.map replayFindings).findings .replay) : finding.stage = .replay := by
  match ending with
  | .broke reason => exact congrArg Finding.stage (List.mem_singleton.mp h)
  | .returned (.error f) => exact congrArg Finding.stage (List.mem_singleton.mp h)
  | .returned (.ok report) =>
    obtain ⟨message, _, rfl⟩ := List.mem_map.mp h
    rfl

/-- All findings of a stage are its own. -/
theorem stage_of_mem_findings {stage : Stage} {u : σ} {finding : Finding}
    (h : finding ∈ ((answering scheme resolve replay).run ⟨false, sources⟩ log stage u).1.findings stage) :
    finding.stage = stage := by
  cases stage with
  | shape =>
    obtain ⟨violation, _, rfl⟩ := List.mem_map.mp h
    rfl
  | hashChain =>
    obtain ⟨fault, _, rfl⟩ := List.mem_map.mp h
    rfl
  | stateHash =>
    have hmem : finding ∈ stateFindings log := h
    unfold stateFindings at hmem
    split at hmem
    · exact absurd hmem List.not_mem_nil
    · dsimp only at hmem
      split at hmem
      · exact absurd hmem List.not_mem_nil
      · exact congrArg Finding.stage (List.mem_singleton.mp hmem)
  | signature =>
    have hmem : finding ∈ (proofFindings scheme resolve false log.entries u).1 := h
    rw [proofFindings_all] at hmem
    exact Signature.stage_of_mem_findingsOn hmem
  | replay =>
    unfold run answering at h
    dsimp only at h
    split at h
    · exact stage_of_mem_replayFindings h
    · exact absurd h List.not_mem_nil

/-- What the stages before the replay come to where all of them are run. -/
theorem ran_answering (t : σ) :
    let checks := answering scheme resolve replay
    ∃ replayed, (checks.account ⟨false, sources⟩ log (checks.plan ⟨false, sources⟩) t).1.ran
      = [(.shape, .returned (structureFindings log)), (.hashChain, .returned (chainFindings log.entries)),
          (.stateHash, .returned (stateFindings log)),
          (.signature, .returned (proofFindings scheme resolve false log.entries t).1)] ++ replayed
        ∧ ∀ r ∈ replayed, r.1 = .replay := by
  intro checks
  rw [plan_eq]
  generalize hlast : (if checks.replays ⟨false, sources⟩ then [Stage.replay] else []) = last
  refine ⟨(checks.account ⟨false, sources⟩ log last
    (proofFindings scheme resolve false log.entries t).2).1.ran, rfl, fun r hr => ?_⟩
  have hall := @account_all _ checks sources log rfl last
    (proofFindings scheme resolve false log.entries t).2
  have hstage : r.1 ∈ last := hall.1 ▸ List.mem_map_of_mem hr
  rw [← hlast] at hstage
  split at hstage
  · exact List.mem_singleton.mp hstage
  · exact absurd hstage List.not_mem_nil

/-- The proofs are checked in the state in which the run begins. -/
theorem ending_of_signature {t : σ} {before after : List (Stage × Ending (List Finding))}
    {ending : Ending (List Finding)}
    (hran : ((answering scheme resolve replay).account ⟨false, sources⟩ log
      ((answering scheme resolve replay).plan ⟨false, sources⟩) t).1.ran
        = before ++ (.signature, ending) :: after) :
    ending.findings .signature = findingsOn 0 log.entries (outcomes scheme resolve log.entries t).1 := by
  obtain ⟨replayed, hall, hreplayed⟩ :=
    @ran_answering _ sources log scheme resolve replay t
  have hmem : (Stage.signature, ending) ∈ before ++ (.signature, ending) :: after :=
    List.mem_append_right _ List.mem_cons_self
  rw [← hran, hall, List.mem_append] at hmem
  rcases hmem with hmem | hmem
  · simp only [List.mem_cons, Prod.mk.injEq, reduceCtorEq, false_and, true_and, false_or,
      List.not_mem_nil, or_false] at hmem
    rw [hmem, proofFindings_all]
    rfl
  · exact absurd (hreplayed _ hmem) (by simp)

end

/-- A stage that finds nothing is passed over. -/
theorem runAll_cons_of_quiet (huncancelled : checks.isCancelled = pure false) {options : VerifyOptions}
    {stage : Stage} (rest : List Stage) {s : σ}
    (hquiet : (checks.run options log stage s).1.findings stage = []) :
    checks.runAll options log (stage :: rest) s
      = checks.runAll options log rest (checks.run options log stage s).2 := by
  rw [runAll, huncancelled, bind_run, pure_run]
  dsimp only
  rw [if_neg Bool.false_ne_true, bind_run, hquiet, if_neg (by simp)]
  rfl

/-- So a log without faults of its own is a matter of the proofs and the replay. -/
theorem runAll_answering {scheme : Scheme} {resolve : Resolver (StateM σ)}
    {replay : Option (Log → Path → StateM σ (Ending (Except Failure ReplayReport)))} {options : VerifyOptions}
    (hshape : structureFindings log = []) (hchain : chainFindings log.entries = [])
    (hstateHash : stateFindings log = []) (stages : List Stage) (s : σ) :
    (answering scheme resolve replay).runAll options log (.shape :: .hashChain :: .stateHash :: stages) s
      = (answering scheme resolve replay).runAll options log stages s := by
  refine (runAll_cons_of_quiet rfl _ ?_).trans ((runAll_cons_of_quiet rfl _ ?_).trans
    (runAll_cons_of_quiet rfl _ ?_))
  · exact hshape
  · exact hchain
  · exact hstateHash

/-- The verdict of a verification is the one on what its stages found, and it leaves the state they leave. -/
theorem verify_run (options : VerifyOptions) (s : σ) :
    checks.verify options log s = let told := checks.account options log (checks.plan options) s
      (.ofFindings told.1.findings, told.2) := by
  rw [verify_eq_account]
  rfl

theorem runAll_run (options : VerifyOptions) (stages : List Stage) (s : σ) :
    checks.runAll options log stages s = let told := checks.account options log stages s
      (told.1.findings, told.2) := by
  rw [runAll_eq_account]
  rfl

/-- The replay comes last, if it takes place. -/
theorem replay_not_mem_dropLast (checks : Checks (StateM σ)) (options : VerifyOptions) :
    Stage.replay ∉ (checks.plan options).dropLast := by
  rw [plan_eq]
  cases checks.replays options <;> decide

end Checks

/-! ## Whole runs -/

/-- What a run that stops early found, compared with a run that goes on: the findings of the first stage that
found anything in the other run, all of them if it is not the stage of the proofs, and otherwise the one on
the first entry whose check fails. -/
structure Truncated {σ : Type} (checks : Checks (StateM σ)) (scheme : Scheme) (resolve : Resolver (StateM σ))
    (sources : Option Path) (log : Log) (s t : σ) (found : List Finding)
    (before : List (Stage × Ending (List Finding))) (stage : Stage) (ending : Ending (List Finding))
    (after : List (Stage × Ending (List Finding))) : Prop where
  /-- The stages before found nothing, this one did, and no stage after it was run. -/
  stops : checks.StopsAt sources log (checks.plan ⟨true, sources⟩) s
    (checks.account ⟨false, sources⟩ log (checks.plan ⟨false, sources⟩) t).1 before stage ending after
  /-- So the verification comes to what these stages alone come to, and leaves the state that they leave. -/
  alone : checks.verify ⟨true, sources⟩ log s
    = let ended := checks.runAll ⟨true, sources⟩ log (before.map Prod.fst ++ [stage]) s
      (.ofFindings ended.1, ended.2)
  /-- The replay is not one of them, unless it is the one that found something. -/
  unreplayed : stage ≠ .replay → Stage.replay ∉ before.map Prod.fst ++ [stage]
  tagged : ∀ finding ∈ found, finding.stage = stage
  others : stage ≠ .signature → found = ending.findings stage
  proofs : stage = .signature → ∃ index e f,
    FirstFailing log.entries (outcomes scheme resolve log.entries t).1 index e f
      ∧ found = [proofFinding index e f]

section

variable {σ : Type} {R : σ → σ → Prop} {scheme : Scheme} {resolve : Resolver (StateM σ)}
  {replay : Option (Log → Path → StateM σ (Ending (Except Failure ReplayReport)))} {sources : Option Path}
  {log : Log}

theorem Checks.StopsAt.findings_eq {checks : Checks (StateM σ)} {stages : List Stage} {s : σ}
    {full : Account} {before after : List (Stage × Ending (List Finding))} {stage : Stage}
    {ending : Ending (List Finding)}
    (h : checks.StopsAt sources log stages s full before stage ending after) (hcancelled : full.cancelled = none) :
    (checks.account ⟨true, sources⟩ log stages s).1.findings = stage.cut (ending.findings stage)
      ∧ full.findings = ending.findings stage ++ after.flatMap fun r => r.2.findings r.1 := by
  have hquiet : (before.flatMap fun r => r.2.findings r.1) = [] := List.flatMap_eq_nil_iff.mpr h.quiet
  obtain ⟨last, hstopped, hlast⟩ := h.stopped
  constructor
  · rw [hstopped, Account.findings, List.flatMap_append, hquiet, ← hlast]
    simp
  · rw [Account.findings, h.ran, hcancelled, List.flatMap_append, hquiet]
    simp

theorem truncated_of_stopsAt {s t : σ} {before after : List (Stage × Ending (List Finding))} {stage : Stage}
    {ending : Ending (List Finding)} {found : List Finding}
    (h : (Checks.answering scheme resolve replay).StopsAt sources log
      ((Checks.answering scheme resolve replay).plan ⟨true, sources⟩) s
      ((Checks.answering scheme resolve replay).account ⟨false, sources⟩ log
        ((Checks.answering scheme resolve replay).plan ⟨false, sources⟩) t).1 before stage ending after)
    (hfound : found = stage.cut (ending.findings stage)) :
    Truncated (Checks.answering scheme resolve replay) scheme resolve sources log s t found before stage ending
      after where
  stops := h
  alone := by
    rw [Checks.verify_run, Checks.runAll_run, h.alone]
  unreplayed := by
    intro hstage hmem
    have hplan := (@Checks.account_all _ (Checks.answering scheme resolve replay) sources log rfl
      ((Checks.answering scheme resolve replay).plan ⟨false, sources⟩) t).1
    rw [h.ran] at hplan
    rcases List.mem_append.mp hmem with hmem | hmem
    · -- A stage of the plan follows it, so it is not the last one.
      refine Checks.replay_not_mem_dropLast (Checks.answering scheme resolve replay) ⟨false, sources⟩ ?_
      rw [← hplan, List.map_append, List.map_cons, List.dropLast_append_cons]
      exact List.mem_append_left _ hmem
    · exact hstage (List.mem_singleton.mp hmem).symm
  tagged := by
    intro finding hmem
    rw [hfound] at hmem
    have hran : (stage, ending) ∈ before ++ (stage, ending) :: after :=
      List.mem_append_right _ List.mem_cons_self
    rw [← h.ran] at hran
    obtain ⟨u, hending⟩ := Checks.ended_of_mem_ran rfl hran
    have hall := (stage.cut_prefix _).subset hmem
    rw [show ending = _ from hending] at hall
    exact Checks.stage_of_mem_findings hall
  others := by
    intro hstage
    rw [hfound, Stage.cut, if_neg hstage]
  proofs := by
    rintro rfl
    have hending := Checks.ending_of_signature h.ran
    have hsome : findingsOn 0 log.entries (outcomes scheme resolve log.entries t).1 ≠ [] :=
      hending ▸ h.found
    obtain ⟨index, e, f, hfirst, hfinding⟩ := firstFailing_of_findingsOn hsome
    refine ⟨index, e, f, hfirst, ?_⟩
    rw [hfound, Stage.cut, if_pos rfl, hending, hfinding, Nat.zero_add]

/-- **Stopping early only leaves out.** What the other run finds are the findings of all its stages. A run
that stops early finds the beginning of it, and something if there is anything. -/
theorem failFast_truncates (hresolve : ∀ did, BlindTo R (resolve did))
    (hreplay : ∀ replayer, replay = some replayer → ∀ log sources, BlindTo R (replayer log sources))
    (sources : Option Path) (log : Log) {s t : σ} (hstates : R s t) :
    let checks := Checks.answering scheme resolve replay
    let fast := (checks.verify ⟨true, sources⟩ log s).1
    let full := (checks.verify ⟨false, sources⟩ log t).1
    let account := (checks.account ⟨false, sources⟩ log (checks.plan ⟨false, sources⟩) t).1
    (account.ran.map Prod.fst = checks.plan ⟨false, sources⟩
        ∧ full.findings = account.ran.flatMap fun r => r.2.findings r.1)
      ∧ fast.findings <+: full.findings
      ∧ (fast.findings = [] ↔ full.findings = [])
      ∧ fast.success = full.success
      ∧ (full.findings ≠ [] → ∃ before stage ending after,
        Truncated checks scheme resolve sources log s t fast.findings before stage ending after) := by
  intro checks fast full account
  obtain ⟨hall, hcancelled⟩ :=
    @Checks.account_all _ checks sources log rfl (checks.plan ⟨false, sources⟩) t
  have hfull : full = .ofFindings account.findings := congrArg Prod.fst (Checks.verify_run _ t)
  have hfast : fast = .ofFindings
      (checks.account ⟨true, sources⟩ log (checks.plan ⟨true, sources⟩) s).1.findings :=
    congrArg Prod.fst (Checks.verify_run _ s)
  have hfindings : full.findings = account.ran.flatMap fun r => r.2.findings r.1 := by
    rw [hfull]
    show account.findings = _
    rw [Account.findings, hcancelled]
    simp
  have hcuts : checks.Cuts R sources log := Checks.cuts_answering hresolve hreplay
  refine ⟨⟨hall, hfindings⟩, ?_⟩
  rcases hcuts.account (checks.plan ⟨false, sources⟩) hstates with
    ⟨hnothing, hsame⟩ | ⟨before, stage, ending, after, hstops⟩
  · have hverdicts : fast = full := by
      rw [hfast, hfull]
      exact congrArg (fun account => Verdict.ofFindings account.findings) hsame
    rw [hverdicts]
    refine ⟨List.prefix_refl _, Iff.rfl, rfl, fun hsome => absurd ?_ hsome⟩
    rw [hfull]
    exact hnothing
  · obtain ⟨hcut, hrest⟩ := hstops.findings_eq hcancelled
    have hfastFindings : fast.findings = stage.cut (ending.findings stage) := by
      rw [hfast]
      exact hcut
    have hfullFindings : full.findings
        = ending.findings stage ++ after.flatMap fun r => r.2.findings r.1 := by
      rw [hfull]
      exact hrest
    have hempty : fast.findings = [] ↔ full.findings = [] := by
      rw [hfastFindings, hfullFindings, Stage.cut_eq_nil, List.append_eq_nil_iff]
      exact iff_of_false hstops.found fun h => hstops.found h.1
    refine ⟨?_, hempty, ?_, fun _ => ⟨before, stage, ending, after,
      truncated_of_stopsAt hstops hfastFindings⟩⟩
    · rw [hfastFindings, hfullFindings]
      exact (stage.cut_prefix _).trans (List.prefix_append _ _)
    · rw [Bool.eq_iff_iff, hfast, hfull, success_ofFindings, success_ofFindings]
      rw [hfast, hfull] at hempty
      exact hempty

end

/-- A resolver that counts its calls and finds nothing. -/
def countingResolver : Resolver (StateM Nat) := fun did calls =>
  (.error (.didResolution did "no document"), calls + 1)

/-- A replay that counts its runs and breaks off. -/
def brokenReplay : Log → Path → StateM Nat (Ending (Except Failure ReplayReport)) :=
  fun _ _ runs => (.broke (some "no runtime"), runs + 1)

/-- The example without a document for its signer, and a replay that breaks off. A run that goes on finds
fault with each of the three proofs and with the replay. The run that stops early asks for one document, has
the finding on one proof, and never gets to the replay. -/
theorem failFast_truncates_sample :
    let checks := Checks.answering Signature.openScheme countingResolver (some brokenReplay)
    let sources := Path.ofString "protocols"
    let log := Sample.log Signature.openScheme
    let fast := checks.verify ⟨true, some sources⟩ log 0
    let full := checks.verify ⟨false, some sources⟩ log 5
    fast.1.findings <+: full.1.findings ∧ fast.1.success = full.1.success
      ∧ fast.1.findings.map Finding.stage = [.signature] ∧ fast.2 = 1
      ∧ full.1.findings.map Finding.stage = [.signature, .signature, .signature, .replay] ∧ full.2 = 9
      ∧ ∃ before ending after, Truncated checks Signature.openScheme countingResolver (some sources) log 0 5
        fast.1.findings before .signature ending after := by
  intro checks sources log fast full
  have hresolve : ∀ did, BlindTo (fun _ _ => True) (countingResolver did) := fun _ _ _ _ => ⟨rfl, trivial⟩
  have hreplay : ∀ replayer, some brokenReplay = some replayer → ∀ log sources,
      BlindTo (fun _ _ => True) (replayer log sources) := by
    rintro _ ⟨rfl⟩ _ _ _ _ _
    exact ⟨rfl, trivial⟩
  obtain ⟨_, hbeginning, _, hsuccess, htruncated⟩ := @failFast_truncates Nat _ Signature.openScheme
    countingResolver (some brokenReplay) hresolve hreplay (some sources) log 0 5 trivial
  obtain ⟨hshape, hchain, hstateHash, _⟩ := Sample.findings_log
  -- The stages before the proofs find nothing, and there is no need to compute a hash to see it.
  have hverify : ∀ failFast s, checks.verify ⟨failFast, some sources⟩ log s
      = let ended := checks.runAll ⟨failFast, some sources⟩ log [.signature, .replay] s
        (.ofFindings ended.1, ended.2) := by
    intro failFast s
    have hplan : checks.runAll ⟨failFast, some sources⟩ log (checks.plan ⟨failFast, some sources⟩) s
        = checks.runAll ⟨failFast, some sources⟩ log [.signature, .replay] s :=
      Checks.runAll_answering hshape hchain hstateHash [.signature, .replay] s
    rw [Checks.verify, bind_run, pure_run, hplan]
  have hfast : fast.1.findings.map Finding.stage = [.signature] := by
    rw [show fast = _ from hverify true 0]
    decide +kernel
  have hfull : full.1.findings.map Finding.stage = [.signature, .signature, .signature, .replay] := by
    rw [show full = _ from hverify false 5]
    decide +kernel
  refine ⟨hbeginning, hsuccess, hfast, ?_, hfull, ?_, ?_⟩
  · rw [show fast = _ from hverify true 0]
    decide +kernel
  · rw [show full = _ from hverify false 5]
    decide +kernel
  · obtain ⟨before, stage, ending, after, hstops⟩ := htruncated fun hnone => by
      rw [show full.1.findings = [] from hnone] at hfull
      exact absurd hfull (by simp)
    obtain ⟨finding, hfinding, hstage⟩ := List.mem_map.mp (hfast ▸ List.mem_singleton_self Stage.signature)
    obtain rfl : Stage.signature = stage := hstage.symm.trans (hstops.tagged finding hfinding)
    exact ⟨before, ending, after, hstops⟩

end AuditTrail
