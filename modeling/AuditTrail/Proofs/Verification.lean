import AuditTrail.Cli.Run
import AuditTrail.Proofs.Issuer.Sound

/-!
# When a verification succeeds

The stages run one after the other, and a run may end early. What it finds in the end is nothing
exactly if no stage finds anything in the state in which its turn comes (`runAll_eq_nil`): a stage
that finds something is never forgotten, whether the run stops at it or goes on, and a run that has
found nothing yet never stops. So the option to stop early has no part in the verdict, and the
conditions for a success are those of the single stages (`Log.Holds`), together with a replay without
errors where there is one.
-/

namespace AuditTrail

/-- What the stages before the replay ask of a log. -/
structure Log.Holds (scheme : Signature.Scheme) (answer : String → Except Failure DidDocument)
    (log : Log) : Prop where
  entries : log.entries ≠ []
  state : log.state.isObject = true
  /-- No required text of an entry is blank. -/
  texts : ∀ e ∈ log.entries, ∀ text ∈ e.requiredTexts, ∃ c ∈ text.toList, c ∉ Text.schemaBlank
  /-- The first entry has no previous hash. -/
  first : ∀ e, log.entries[0]? = some e → e.previousHash = none
  /-- Every later entry repeats the hash of the entry before it. -/
  links : ∀ i e f, log.entries[i]? = some e → log.entries[i + 1]? = some f →
    f.previousHash = some e.hash
  stateHash : ∀ e, log.last? = some e → canonicalHash log.state = e.stateHash
  proofs : ∀ e ∈ log.entries, Signature.Accepts scheme answer e

/-- The stages with a way to find documents, and with a replay if there is one. -/
def Checks.wired {m : Type → Type} [Monad m] (scheme : Signature.Scheme)
    (resolve : Signature.Resolver m)
    (replay : Option (Log → Path → m (Except Failure ReplayReport))) : Checks m :=
  match replay with
  | none => .ofResolver scheme resolve
  | some replay => (Checks.ofResolver scheme resolve).withReplay replay

namespace Checks

variable {σ : Type} {checks : Checks (StateM σ)} {options : VerifyOptions} {log : Log}

/-! ## Running stages -/

/-- Whether no stage of a list finds anything, each in the state that the stages before it leave. -/
def Quiet (checks : Checks (StateM σ)) (options : VerifyOptions) (log : Log) :
    List Stage → σ → Prop
  | [], _ => True
  | stage :: rest, s =>
    ((checks.run options log stage s).1.findings stage) = []
      ∧ Quiet checks options log rest (checks.run options log stage s).2

/-- **A run finds nothing exactly if none of its stages does.** -/
theorem runAll_eq_nil (hcancel : checks.isCancelled = pure false) {stages : List Stage} {s : σ} :
    (checks.runAll options log stages s).1 = [] ↔ checks.Quiet options log stages s := by
  induction stages generalizing s with
  | nil => simp [runAll, Quiet, pure_run]
  | cons stage rest ih =>
    rw [runAll, hcancel, Quiet, bind_run, pure_run]
    dsimp only
    rw [if_neg Bool.false_ne_true, bind_run]
    -- A stage with findings settles both sides, whether the run stops there or goes on.
    cases hfound : (checks.run options log stage s).1.findings stage with
    | nil => simp [bind_run, pure_run, ih]
    | cons finding more =>
      cases options.failFast with
      | true => simp [pure_run]
      | false => simp [bind_run, pure_run]

/-- The first four stages, and the replay if it takes place. -/
theorem plan_eq (checks : Checks (StateM σ)) (options : VerifyOptions) :
    checks.plan options = [.shape, .hashChain, .stateHash, .signature]
      ++ (if checks.replays options then [.replay] else []) := by
  unfold plan
  cases checks.replays options <;> rfl

/-! ## The stages as they are -/

section

variable {scheme : Signature.Scheme} {resolve : Signature.Resolver (StateM σ)}
  {replay : Option (Log → Path → StateM σ (Except Failure ReplayReport))}

theorem isCancelled_wired : (wired scheme resolve replay).isCancelled = pure false := by
  cases replay <;> rfl

/-- The four stages of every run, in the order they run. Only the last of them has a state. -/
theorem quiet_wired {stages : List Stage} {s : σ} :
    (wired scheme resolve replay).Quiet options log
        (.shape :: .hashChain :: .stateHash :: .signature :: stages) s
      ↔ structureFindings log = [] ∧ chainFindings log.entries = [] ∧ stateFindings log = []
        ∧ (Signature.proofFindings scheme resolve options.failFast log.entries s).1 = []
        ∧ (wired scheme resolve replay).Quiet options log stages
          (Signature.proofFindings scheme resolve options.failFast log.entries s).2 := by
  cases replay <;> exact Iff.rfl

/-- Whether the replay, if there is one, returns a report without errors in a given state. -/
def ReplayClean (replay : Option (Log → Path → StateM σ (Except Failure ReplayReport)))
    (options : VerifyOptions) (log : Log) (s : σ) : Prop :=
  ∀ replayer sources, replay = some replayer → options.sources = some sources →
    ∃ report, (replayer log sources s).1 = .ok report ∧ report.errors = []

theorem replayFindings_eq_nil {outcome : Except Failure ReplayReport} :
    replayFindings outcome = [] ↔ ∃ report, outcome = .ok report ∧ report.errors = [] := by
  cases outcome with
  | error f => simp [replayFindings]
  | ok report => simp [replayFindings]

theorem quiet_replay {s : σ} :
    (wired scheme resolve replay).Quiet options log
        (if (wired scheme resolve replay).replays options then [.replay] else []) s
      ↔ ReplayClean replay options log s := by
  unfold ReplayClean
  cases replay with
  | none => simp [wired, replays, ofResolver, Quiet]
  | some replayer =>
    cases hsources : options.sources with
    | none => simp [wired, replays, withReplay, hsources, Quiet]
    | some sources =>
      have hfindings : ((wired scheme resolve (some replayer)).run options log .replay s).1.findings
          .replay = replayFindings (replayer log sources s).1 := by
        simp only [run, wired, withReplay, hsources]
        rfl
      have hreplays : (wired scheme resolve (some replayer)).replays options = true := by
        simp [replays, wired, withReplay, hsources]
      rw [hreplays, if_pos rfl, Quiet, hfindings, replayFindings_eq_nil]
      simp [Quiet]

end

end Checks

/-! ## Success -/

theorem Log.holds_iff {scheme : Signature.Scheme} {answer : String → Except Failure DidDocument}
    {log : Log} : log.Holds scheme answer ↔ structureFindings log = []
      ∧ chainFindings log.entries = [] ∧ stateFindings log = []
      ∧ ∀ e ∈ log.entries, Signature.Accepts scheme answer e := by
  rw [structureFindings_eq_nil, chainFindings_eq_nil, linked_iff_getElem?, stateFindings_eq_nil]
  constructor
  · intro h
    exact ⟨⟨h.entries, h.state, h.texts⟩, ⟨h.first, h.links⟩, h.stateHash, h.proofs⟩
  · rintro ⟨⟨hentries, hstate, htexts⟩, ⟨hfirst, hlinks⟩, hstateHash, hproofs⟩
    exact ⟨hentries, hstate, htexts, hfirst, hlinks, hstateHash, hproofs⟩

section

variable {σ : Type} {scheme : Signature.Scheme} {resolve : Signature.Resolver (StateM σ)}
  {answer : String → Except Failure DidDocument}

theorem success_ofFindings {findings : List Finding} :
    (Verdict.ofFindings findings).success = true ↔ findings = [] := by
  simp [Verdict.ofFindings]

theorem success_wired (hanswer : ∀ did s, (resolve did s).1 = answer did)
    (replay : Option (Log → Path → StateM σ (Except Failure ReplayReport)))
    (options : VerifyOptions) (log : Log) (s : σ) :
    ((Checks.wired scheme resolve replay).verify options log s).1.success = true
      ↔ log.Holds scheme answer ∧ Checks.ReplayClean replay options log
        (Signature.proofFindings scheme resolve options.failFast log.entries s).2 := by
  rw [Checks.verify, bind_run, pure_run, success_ofFindings,
    Checks.runAll_eq_nil Checks.isCancelled_wired, Checks.plan_eq, List.cons_append,
    List.cons_append, List.cons_append, List.cons_append, List.nil_append, Checks.quiet_wired,
    Checks.quiet_replay, Signature.proofFindings_eq_nil hanswer, Log.holds_iff]
  tauto

theorem exitCode_zero_iff {verdict : Verdict} :
    Cli.exitCodeOf (.ok verdict) = 0 ↔ verdict.success = true := by
  cases hsuccess : verdict.success <;> simp [Cli.exitCodeOf, hsuccess]

theorem exitCode_refused_iff {verdict : Verdict} :
    Cli.exitCodeOf (.ok verdict) = 65 ↔ ¬ verdict.success = true := by
  cases hsuccess : verdict.success <;> simp [Cli.exitCodeOf, hsuccess]

/-- **A verification succeeds exactly if the log holds and its replay is clean.** The exit code is
then `0`, and `65` in every other case. -/
theorem verify_success_iff (hanswer : ∀ did s, (resolve did s).1 = answer did)
    (replay : Option (Log → Path → StateM σ (Except Failure ReplayReport)))
    (options : VerifyOptions) (log : Log) (s : σ) :
    let verdict := ((Checks.wired scheme resolve replay).verify options log s).1
    let holds := log.Holds scheme answer ∧ Checks.ReplayClean replay options log
      (Signature.proofFindings scheme resolve options.failFast log.entries s).2
    (verdict.success = true ↔ holds)
      ∧ (Cli.exitCodeOf (.ok verdict) = 0 ↔ holds)
      ∧ (Cli.exitCodeOf (.ok verdict) = 65 ↔ ¬ holds) := by
  intro verdict holds
  have hsuccess : verdict.success = true ↔ holds := success_wired hanswer replay options log s
  refine ⟨hsuccess, ?_, ?_⟩
  · rw [exitCode_zero_iff, hsuccess]
  · rw [exitCode_refused_iff, hsuccess]

end

/-- A resolver that has the document of the issuer for every DID, and counts what it is asked. -/
def issuerResolver : Signature.Resolver (StateM Nat) := fun _ asked =>
  (.ok (Signer.issuer.document Signature.openScheme), asked + 1)

/-- A replay that counts its runs and finds nothing wrong. -/
def cleanReplay (log : Log) (_ : Path) : StateM Nat (Except Failure ReplayReport) := fun runs =>
  (.ok (.ofErrors log.entries.length []), runs + 1)

/-- The example passes, with its replay. Without its first entry it does not, and neither does a log without
entries, for which every check of an entry is passed over. -/
theorem verify_sample_log :
    let checks := Checks.wired Signature.openScheme issuerResolver (some cleanReplay)
    let verdict := fun failFast log =>
      (checks.verify ⟨failFast, some (Path.ofString "protocols")⟩ log 0).1
    let log := Sample.log Signature.openScheme
    ∀ failFast, (verdict failFast log).success = true
      ∧ Cli.exitCodeOf (.ok (verdict failFast log)) = 0
      ∧ Cli.exitCodeOf (.ok (verdict failFast ⟨log.entries.tail, log.state⟩)) = 65
      ∧ Cli.exitCodeOf (.ok (verdict failFast ⟨[], log.state⟩)) = 65 := by
  intro checks verdict log failFast
  have hanswer : ∀ did s, (issuerResolver did s).1 = .ok (Signer.issuer.document Signature.openScheme) :=
    fun _ _ => rfl
  have hiff := fun log => @verify_success_iff _ Signature.openScheme _ _ hanswer (some cleanReplay)
    ⟨failFast, some (Path.ofString "protocols")⟩ log 0
  have hholds : log.Holds Signature.openScheme _ := Log.holds_iff.mpr Sample.findings_log
  have hclean : Checks.ReplayClean (some cleanReplay) ⟨failFast, some (Path.ofString "protocols")⟩ log
      (Signature.proofFindings Signature.openScheme issuerResolver failFast log.entries 0).2 := by
    rintro _ _ ⟨rfl⟩ _
    exact ⟨_, rfl, rfl⟩
  refine ⟨(hiff log).1.mpr ⟨hholds, hclean⟩, (hiff log).2.1.mpr ⟨hholds, hclean⟩, ?_, ?_⟩
  · -- The entry that is the first now still names the one that was.
    exact (hiff _).2.2.mpr fun h => Option.some_ne_none _ (h.1.first _ rfl)
  · exact (hiff _).2.2.mpr fun h => h.1.entries rfl

end AuditTrail
