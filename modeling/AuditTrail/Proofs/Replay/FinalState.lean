import AuditTrail.Proofs.Json.Value
import AuditTrail.Proofs.Log.Chain
import AuditTrail.Proofs.Log.Commitment
import AuditTrail.Proofs.Replay.Faithful
import AuditTrail.Proofs.Replay.Normalize
import AuditTrail.Proofs.Replay.Run

/-!
# What a replay without errors says about the final state

Two stages look at the final state, and neither sees what the other has. The check of the state hash
compares the audited state with the last entry, and the replay compares the live state with the last
entry; only a digest stands between them. If both find nothing, then

> the live state that was fetched last is the audited final state up to the spelling of numbers, or two
> texts collide (`final_state_reproduced`).

Nothing is assumed of the runtime, not even that it answers. A replay that ends with a report was not
cancelled, and a visit without an error ends with a state that was compared and found equal
(`visit_matches`), so the invariant of the run is about its last request only (`visitAll_matches`).
-/

namespace AuditTrail.Replay

open Http (Exchange Request Response Reply)
open Simulation (Runtime)
open Signature (openScheme)
open Http.Exchange (Generates generates_bind generates_pure generates_send)

/-! ## Calls that were accepted -/

/-- A call that comes to an end was not cancelled. -/
theorem ne_cancelled_of_call {request : Request} {attempts : List Attempt} {result : CallResult}
    {sent : List (Request × Reply)} (h : Generates (callWith request attempts) sent (.ok result)) :
    ∀ p ∈ sent, p.2 ≠ .error .cancelled := by
  intro p hp
  generalize houtcome : (.ok result : Except Failure CallResult) = outcome at h
  cases search_of_generates h with
  | exhausted message hsent hrefused => exact ne_error_of_refused (hrefused p hp) .cancelled
  | settled attempt after hsent hrefused hreply =>
    rcases List.mem_append.mp hp with hp | hp
    · exact ne_error_of_refused (hrefused p hp) .cancelled
    · rw [List.mem_singleton.mp hp]
      intro hcancelled
      exact absurd (houtcome.trans (settled_eq_error.mpr ⟨rfl, hcancelled⟩)) (by simp)

theorem callTrace_of_call {request : Request} {attempts : List Attempt} {result : CallResult}
    {sent : List (Request × Reply)} (h : Generates (callWith request attempts) sent (.ok result)) :
    CallTrace request result sent := by
  obtain ⟨called, hcalled, htrace⟩ := callTrace_of_generates h (ne_cancelled_of_call h)
  rwa [Except.ok.inj hcalled]

/-- An accepted call ends with the response that accepts it, after refusals of the same request. -/
theorem CallTrace.sent_eq {request : Request} {response : Response} {sent : List (Request × Reply)}
    (h : CallTrace request (.ok response) sent) : response.isSuccess = true
      ∧ ∃ refusals token, sent = refusals ++ [(request.withBearer token, .ok response)]
        ∧ ∀ p ∈ refusals, Replay.refused p.2 = true ∧ ∃ token, p.1 = request.withBearer token := by
  generalize hresult : (.ok response : CallResult) = result at h
  induction h with
  | exhausted message => exact absurd hresult (by simp)
  | refused token refusal hstatus rest ih =>
    obtain ⟨hsuccess, refusals, last, rfl, hrefusals⟩ := ih hresult
    refine ⟨hsuccess, (request.withBearer token, .ok refusal) :: refusals, last, rfl, ?_⟩
    intro p hp
    rcases List.mem_cons.mp hp with rfl | hp
    · exact ⟨by simp [Replay.refused, hstatus], token, rfl⟩
    · exact hrefusals p hp
  | unanswered token f message => exact absurd hresult (by simp)
  | rejected token rejection message hrejected => exact absurd hresult (by simp)
  | accepted token accepted hsuccess =>
    obtain rfl := Except.ok.inj hresult
    exact ⟨hsuccess, [], token, rfl, by simp⟩

/-! ## Visits without an error -/

/-- The call of an entry in a phase, with the response to it and the id of the instance after it. -/
inductive Calls (s : Setup) (e : Entry) : Phase → Request → Response → String → Prop
  | constructs {response : Response} {liveId : String}
      (hid : response.record s.constructorUrl liveIdOfTree? = .ok liveId) :
      Calls s e .awaitingConstruction (s.construction e.action) response liveId
  | invokes {response : Response} {liveId : String} :
      Calls s e (.active liveId) (s.invocation liveId e.action) response liveId

/-- The call of an entry was accepted, and the state fetched after it has the hash that the entry
records. -/
structure Matches (s : Setup) (phase : Phase) (e : Entry) (liveId : String) (live : Json)
    (sent : List (Request × Reply)) : Prop where
  requests : ∃ call accepted response posts gets, sent = posts ++ gets
    ∧ Calls s e phase call accepted liveId
    ∧ CallTrace call (.ok accepted) posts
    ∧ CallTrace (Request.get (s.instanceUrl liveId)) (.ok response) gets
    ∧ response.json (s.instanceUrl liveId) = .ok live
  hash : canonicalHash (comparable s liveId live) = e.stateHash

section

variable {s : Setup} {index : Nat} {e : Entry} {liveId : String} {sent : List (Request × Reply)}

theorem construct_calls {outcome : String} (h : Generates (construct s e.action) sent (.ok (.ok outcome))) :
    ∃ response, CallTrace (s.construction e.action) (.ok response) sent
      ∧ response.record s.constructorUrl liveIdOfTree? = .ok outcome := by
  rw [construct, generates_bind] at h
  obtain ⟨posts, after, called, rfl, hcall, hrest⟩ := h
  split at hrest
  · exact absurd (generates_pure.mp hrest).2 (by simp)
  · exact absurd (generates_pure.mp hrest).2 (by simp)
  · rename_i response
    split at hrest
    · rename_i liveId hid
      obtain ⟨rfl, heq⟩ := generates_pure.mp hrest
      simp only [Except.ok.injEq] at heq
      rw [List.append_nil, heq]
      exact ⟨response, callTrace_of_call hcall, hid⟩
    · exact absurd (generates_pure.mp hrest).2 (by simp)

theorem invoke_calls (h : Generates (invoke s liveId e.action) sent (.ok (.ok ()))) :
    ∃ response, CallTrace (s.invocation liveId e.action) (.ok response) sent := by
  rw [invoke, generates_bind] at h
  obtain ⟨posts, after, called, rfl, hcall, hrest⟩ := h
  split at hrest
  · exact absurd (generates_pure.mp hrest).2 (by simp)
  · exact absurd (generates_pure.mp hrest).2 (by simp)
  · rename_i response
    obtain ⟨rfl, _⟩ := generates_pure.mp hrest
    rw [List.append_nil]
    exact ⟨response, callTrace_of_call hcall⟩

theorem checkState_matches (h : Generates (checkState s liveId e) sent (.ok (.ok ()))) :
    ∃ response live, CallTrace (Request.get (s.instanceUrl liveId)) (.ok response) sent
      ∧ response.json (s.instanceUrl liveId) = .ok live
      ∧ canonicalHash (comparable s liveId live) = e.stateHash := by
  rw [checkState, generates_bind] at h
  obtain ⟨gets, after, called, rfl, hcall, hrest⟩ := h
  split at hrest
  · exact absurd (generates_pure.mp hrest).2 (by simp)
  · exact absurd (generates_pure.mp hrest).2 (by simp)
  · rename_i response
    split at hrest
    · rename_i live hjson
      obtain ⟨rfl, heq⟩ := generates_pure.mp hrest
      rw [List.append_nil]
      exact ⟨response, live, callTrace_of_call hcall, hjson,
        compareState_eq_ok.mp (Except.ok.inj heq).symm⟩
    · exact absurd (generates_pure.mp hrest).2 (by simp)

/-- After an accepted call, a visit has an error unless the state compares equal. -/
theorem fetch_matches {phase : Phase} {v : Visit}
    (h : Generates (do
      let outcome ← checkState s liveId e
      pure (outcome.map (Visit.accepted phase))) sent (.ok v)) (hnone : v.error = none) :
    v.phase = phase ∧ Generates (checkState s liveId e) sent (.ok (.ok ())) := by
  rw [generates_bind] at h
  obtain ⟨gets, after, outcome, rfl, hcheck, hrest⟩ := h
  obtain ⟨rfl, heq⟩ := generates_pure.mp hrest
  rw [List.append_nil]
  cases outcome with
  | error f => exact absurd heq (by simp [Except.map])
  | ok result =>
    obtain rfl := Except.ok.inj heq
    cases result with
    | error message => exact absurd hnone (by simp [Visit.accepted])
    | ok u => exact ⟨rfl, hcheck⟩

/-- **A visit without an error ends with a state that matches.** -/
theorem visit_matches {phase : Phase} {v : Visit}
    (h : Generates (visit s phase index e) sent (.ok v)) (hnone : v.error = none) :
    ∃ liveId live, v.phase = .active liveId ∧ Matches s phase e liveId live sent := by
  unfold visit at h
  split at h
  · rw [generates_bind] at h
    obtain ⟨posts, gets, constructed, rfl, hconstruct, hrest⟩ := h
    split at hrest
    · exact absurd (generates_pure.mp hrest).2 (by simp)
    · have hv := Except.ok.inj (generates_pure.mp hrest).2
      exact absurd hnone (by simp [hv])
    · rename_i liveId
      obtain ⟨accepted, hposts, hid⟩ := construct_calls hconstruct
      obtain ⟨hphase, hcheck⟩ := fetch_matches hrest hnone
      obtain ⟨response, live, hgets, hjson, hhash⟩ := checkState_matches hcheck
      exact ⟨liveId, live, hphase,
        ⟨_, accepted, response, posts, gets, rfl, .constructs hid, hposts, hgets, hjson⟩, hhash⟩
  · have hv := Except.ok.inj (generates_pure.mp h).2
    exact absurd hnone (by simp [hv])
  · rename_i liveId _
    rw [generates_bind] at h
    obtain ⟨posts, gets, invoked, rfl, hinvoke, hrest⟩ := h
    split at hrest
    · exact absurd (generates_pure.mp hrest).2 (by simp)
    · have hv := Except.ok.inj (generates_pure.mp hrest).2
      exact absurd hnone (by simp [hv])
    · obtain ⟨accepted, hposts⟩ := invoke_calls hinvoke
      obtain ⟨hphase, hcheck⟩ := fetch_matches hrest hnone
      obtain ⟨response, live, hgets, hjson, hhash⟩ := checkState_matches hcheck
      exact ⟨liveId, live, hphase,
        ⟨_, accepted, response, posts, gets, rfl, .invokes, hposts, hgets, hjson⟩, hhash⟩
  · have hv := Except.ok.inj (generates_pure.mp h).2
    exact absurd hnone (by simp [hv])

end

/-! ## Runs without an error -/

/-- An instance was constructed, and its id read from the response. -/
def Constructed (s : Setup) (liveId : String) (sent : List (Request × Reply)) : Prop :=
  ∃ action token response, ((s.construction action).withBearer token, .ok response) ∈ sent
    ∧ response.isSuccess = true ∧ response.record s.constructorUrl liveIdOfTree? = .ok liveId

/-- A run ends with the accepted call of an entry and the state of the instance, fetched after it with
one token or, where that was refused, another. -/
def EndsWithState (s : Setup) (e : Entry) (liveId : String) (live : Json)
    (sent : List (Request × Reply)) : Prop :=
  ∃ earlier call accepted refusals fetch response,
    sent = earlier ++ (call, .ok accepted) :: (refusals ++ [(fetch, .ok response)])
      ∧ (∃ token, call = (s.construction e.action).withBearer token
        ∨ call = (s.invocation liveId e.action).withBearer token)
      ∧ accepted.isSuccess = true
      ∧ (∀ p ∈ refusals, Replay.refused p.2 = true
        ∧ ∃ token, p.1 = (Request.get (s.instanceUrl liveId)).withBearer token)
      ∧ (∃ token, fetch = (Request.get (s.instanceUrl liveId)).withBearer token)
      ∧ response.isSuccess = true
      ∧ Json.read? response.body = some live

theorem Constructed.mono {s : Setup} {liveId : String} {sent sent' : List (Request × Reply)}
    (hsub : sent ⊆ sent') (h : Constructed s liveId sent) : Constructed s liveId sent' := by
  obtain ⟨action, token, response, hmem, hrest⟩ := h
  exact ⟨action, token, response, hsub hmem, hrest⟩

theorem EndsWithState.prepend {s : Setup} {e : Entry} {liveId : String} {live : Json}
    {sent : List (Request × Reply)} (before : List (Request × Reply))
    (h : EndsWithState s e liveId live sent) : EndsWithState s e liveId live (before ++ sent) := by
  obtain ⟨earlier, call, accepted, refusals, fetch, response, rfl, hrest⟩ := h
  exact ⟨before ++ earlier, call, accepted, refusals, fetch, response,
    (List.append_assoc _ _ _).symm, hrest⟩

theorem json_eq_ok {response : Response} {url : String} {v : Json} :
    response.json url = .ok v ↔ Json.read? response.body = some v := by
  unfold Response.json
  cases Json.read? response.body <;> simp

section

variable {s : Setup} {e : Entry} {liveId : String} {live : Json} {phase : Phase}
  {sent : List (Request × Reply)}

theorem Matches.endsWithState (h : Matches s phase e liveId live sent) :
    EndsWithState s e liveId live sent := by
  obtain ⟨call, accepted, response, posts, gets, rfl, hcalls, hposts, hgets, hjson⟩ := h.requests
  obtain ⟨haccepted, refusedPosts, token, rfl, _⟩ := hposts.sent_eq
  obtain ⟨hsuccess, refusedGets, token', rfl, hrefused⟩ := hgets.sent_eq
  refine ⟨refusedPosts, call.withBearer token, accepted, refusedGets, _, response, by simp, ⟨token, ?_⟩,
    haccepted, hrefused, ⟨token', rfl⟩, hsuccess, json_eq_ok.mp hjson⟩
  cases hcalls with
  | constructs hid => exact Or.inl rfl
  | invokes => exact Or.inr rfl

/-- The instance of a match is the one of the phase, or it was constructed just then. -/
theorem Matches.active_or_constructed (h : Matches s phase e liveId live sent) :
    phase = .active liveId ∨ Constructed s liveId sent := by
  obtain ⟨call, accepted, response, posts, gets, rfl, hcalls, hposts, hgets, hjson⟩ := h.requests
  cases hcalls with
  | invokes => exact Or.inl rfl
  | constructs hid =>
    obtain ⟨haccepted, refusedPosts, token, rfl, _⟩ := hposts.sent_eq
    exact Or.inr ⟨e.action, token, accepted, by simp, haccepted, hid⟩

end

/-- **A run without an error ends with the state of the last entry.** -/
theorem visitAll_matches {s : Setup} {entries : List Entry} {phase : Phase} {index : Nat}
    {sent : List (Request × Reply)} {visits : List (Entry × Visit)}
    (h : Generates (visitAll s phase index entries) sent (.ok visits))
    (hnone : ∀ v ∈ visits, v.2.error = none) {e : Entry} (hlast : entries.getLast? = some e) :
    ∃ liveId live, EndsWithState s e liveId live sent
      ∧ canonicalHash (comparable s liveId live) = e.stateHash
      ∧ (phase = .active liveId ∨ Constructed s liveId sent) := by
  induction entries generalizing phase index sent visits with
  | nil => exact absurd hlast (by simp)
  | cons first rest ih =>
    rw [visitAll, generates_bind] at h
    obtain ⟨here, after, visited, rfl, hvisit, hrest⟩ := h
    split at hrest
    · exact absurd (generates_pure.mp hrest).2 (by simp)
    rename_i v
    rw [generates_bind] at hrest
    obtain ⟨later, nothing, outcome, rfl, hlater, hdone⟩ := hrest
    obtain ⟨rfl, heq⟩ := generates_pure.mp hdone
    cases outcome with
    | error f => exact absurd heq (by simp [Except.map])
    | ok more =>
      obtain rfl := Except.ok.inj heq
      obtain ⟨hhere, hmore⟩ := List.forall_mem_cons.mp hnone
      obtain ⟨liveId, live, hphase, hmatches⟩ := visit_matches hvisit hhere
      rw [List.append_nil]
      cases hrests : rest with
      | nil =>
        subst hrests
        obtain ⟨rfl, _⟩ := generates_pure.mp hlater
        rw [List.getLast?_singleton, Option.some.injEq] at hlast
        subst hlast
        rw [List.append_nil]
        exact ⟨liveId, live, hmatches.endsWithState, hmatches.hash, hmatches.active_or_constructed⟩
      | cons second others =>
        -- The id that the rest of the run speaks of is the one it began with, or a newer one.
        rw [hrests, List.getLast?_cons_cons, ← hrests] at hlast
        obtain ⟨liveId', live', hends, hhash, hid⟩ := ih hlater hmore hlast
        refine ⟨liveId', live', hends.prepend here, hhash, ?_⟩
        rcases hid with hsame | hnew
        · obtain rfl := Phase.active.inj (hphase.symm.trans hsame)
          exact hmatches.active_or_constructed.imp_right
            (Constructed.mono (List.subset_append_left _ _))
        · exact Or.inr (hnew.mono (List.subset_append_right _ _))

theorem setup_finalState {baseUrl : String} {log : Log} {tokens : PartyTokens} {hints : PartyHints}
    {s : Setup} (h : setup baseUrl log tokens hints = .ok s) : s.finalState = log.state := (setup_eq_ok h).1

/-- **The final state of a log without findings was reproduced.** If the state hash has no finding and a
replay ends with a report without errors, then the state that was fetched last, after the last entry,
is the audited final state up to numbers, member by member where that state has members; or the two
texts collide. -/
theorem final_state_reproduced {σ : Type} (server : σ → Request → Reply × σ) (state : σ)
    (baseUrl : String) {log : Log} (tokens : PartyTokens) (hints : PartyHints) {report : ReplayReport}
    (hwell : log.state.WellFormed) (hentries : log.entries ≠ []) (hstate : stateFindings log = [])
    (hreport : ((replayWith baseUrl log tokens hints).against server state).1 = .ok report)
    (herrors : report.errors = []) :
    ∃ s e liveId live, setup baseUrl log tokens hints = .ok s ∧ log.last? = some e
      ∧ EndsWithState s e liveId live ((replayWith baseUrl log tokens hints).against server state).2.1
      ∧ Constructed s liveId ((replayWith baseUrl log tokens hints).against server state).2.1
      ∧ ((projected log.state (withAuditedId liveId s.identity.protocolId.display live)).SameUpToNumbers
            log.state
          ∧ (∀ name audited, log.state.get? name = some audited →
            ∃ found shown, live.get? name = some found
              ∧ (withAuditedId liveId s.identity.protocolId.display live).get? name = some shown
              ∧ shown.SameUpToNumbers audited)
        ∨ Collision [(projected log.state
            (withAuditedId liveId s.identity.protocolId.display live)).canonical, log.state.canonical]) := by
  have hrun := Exchange.generates_against server (replayWith baseUrl log tokens hints) state
  rw [hreport] at hrun
  generalize ((replayWith baseUrl log tokens hints).against server state).2.1 = sent at hrun ⊢
  unfold replayWith at hrun
  split at hrun
  · exact absurd (generates_pure.mp hrun).2 (by simp)
  rename_i s hsetup
  rw [generates_bind] at hrun
  obtain ⟨before, nothing, outcome, rfl, hvisits, hdone⟩ := hrun
  obtain ⟨rfl, heq⟩ := generates_pure.mp hdone
  cases outcome with
  | error f => exact absurd heq (by simp [Except.map])
  | ok visits =>
    obtain rfl := Except.ok.inj heq
    obtain ⟨e, hlast⟩ := Option.ne_none_iff_exists'.mp (mt List.getLast?_eq_none_iff.mp hentries)
    obtain ⟨liveId, live, hends, hhash, hid⟩ :=
      visitAll_matches hvisits (messagesFrom_eq_nil.mp herrors) hlast
    have hconstructed := hid.resolve_left (by simp)
    rw [List.append_nil]
    refine ⟨s, e, liveId, live, hsetup, hlast, hends, hconstructed, ?_⟩
    have hlive : live.WellFormed := by
      obtain ⟨_, _, _, _, _, response, _, _, _, _, _, _, hread⟩ := hends
      exact (Json.wellFormed_of_read? hread).1
    -- The digest in the last entry is the one thing that the two stages share.
    rw [comparable, setup_finalState hsetup, ← stateFindings_eq_nil.mp hstate e hlast] at hhash
    refine (canonicalHash_eq (wellFormed_projected (wellFormed_withAuditedId hlive)) hwell
      List.mem_cons_self (List.mem_cons_of_mem _ List.mem_cons_self) hhash).imp_left ?_
    intro hsame
    refine ⟨hsame, ?_⟩
    intro name audited haudited
    obtain ⟨shown, hshown, hsameMember⟩ := hsame.get? haudited
    rw [get?_projected haudited] at hshown
    obtain ⟨found, hfound, _⟩ := Option.map_eq_some_iff.mp (get?_withAuditedId ▸ hshown)
    exact ⟨found, shown, hfound, hshown, hsameMember⟩

/-- The log of a debt that was paid in part. -/
def paidLog : Log :=
  Draft.issued openScheme .issuer Draft.exampleIdentity (.object []) (openDebt 100)
    [debtStep "pay" (openDebt 60)]

/-- The final state of a debt is reproduced by the runtime that serves the states of the debt. -/
theorem final_state_paid :
    let run := (replayWith "http://localhost:12000" paidLog ⟨[], none⟩ .none).against
      (debtRuntime [openDebt 100, openDebt 60]).serve Runtime.initial
    ∃ report s e liveId live, run.1 = .ok report ∧ report.errors = [] ∧ stateFindings paidLog = []
      ∧ EndsWithState s e liveId live run.2.1 ∧ Constructed s liveId run.2.1
      ∧ ((projected paidLog.state (withAuditedId liveId s.identity.protocolId.display live)).SameUpToNumbers
          paidLog.state
        ∨ Collision [(projected paidLog.state
            (withAuditedId liveId s.identity.protocolId.display live)).canonical, paidLog.state.canonical]) := by
  have hfaithful := faithful_debtRuntime "pay" (by decide) (isTemplate_openDebt 100 (by decide))
    (isTemplate_openDebt 60 (by decide))
  obtain ⟨report, hrun, _, _, herrors⟩ :=
    report_faithful openScheme .issuer (.object []) hfaithful ⟨[], none⟩ .none
  have hnone : report.errors = [] := by
    refine herrors.mpr (List.forall_mem_cons.mpr ⟨?_, List.forall_mem_singleton.mpr ?_⟩)
    all_goals exact congrArg canonicalHash (covers_openDebt _ _).projected_eq
  have hwell : paidLog.state.WellFormed := by
    rw [paidLog, Draft.state_issued]
    exact Template.wellFormed_instantiate (isTemplate_openDebt 60 (by decide)).wellFormed
  have hstate : stateFindings paidLog = [] := Draft.stateFindings_issued _ _ _ _ _ _
  obtain ⟨s, e, liveId, live, _, _, hends, hconstructed, hsame⟩ := final_state_reproduced
    (debtRuntime [openDebt 100, openDebt 60]).serve Runtime.initial "http://localhost:12000"
    ⟨[], none⟩ .none hwell (List.cons_ne_nil _ _) hstate hrun hnone
  exact ⟨report, s, e, liveId, live, hrun, hnone, hstate, hends, hconstructed, hsame.imp_left And.left⟩

end AuditTrail.Replay
