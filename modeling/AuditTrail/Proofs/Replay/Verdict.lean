import AuditTrail.Proofs.Replay.Run
import AuditTrail.Proofs.Replay.Tokens

/-!
# The order of tokens does not show

A runtime is behind a gate if tokens decide only whether a request gets through. A request that does not is
refused, and nothing has happened; one that does is served without regard to its token. Of the attempts of a
call then at most one has an effect, and which effect it has does not depend on which token was the one that
got through. Two calls that try the same tokens, in whatever order, come to the same (`Gated.alike_call`).

> Hints and the names that tokens go by change what a replay sends. They do not change how it ends
> (`same_verdict_of_same_tokens`).
-/

namespace AuditTrail.Replay

open Http (Exchange Request Response Reply)
open Http.Exchange (Generates Yields Alike generates_bind generates_pure generates_send generates_against)

/-! ## Calls through a gate -/

section

variable {σ : Type} {server serve : σ → Request → Reply × σ}
  {admits : σ → Request → Option String → Prop}

/-- A server is a gate with a runtime behind it. What the gate admits depends on the state and on the request
without its token, and the runtime does not see tokens. Only the gate answers with the status 403. -/
structure Gated (server : σ → Request → Reply × σ) (admits : σ → Request → Option String → Prop)
    (serve : σ → Request → Reply × σ) : Prop where
  refuses : ∀ s r, ¬ admits s (r.withBearer none) r.bearer → ∃ body, server s r = (.ok ⟨403, body⟩, s)
  serves : ∀ s r, admits s (r.withBearer none) r.bearer → server s r = serve s (r.withBearer none)
  admitted : ∀ s r, refused (serve s r).1 = false

namespace Gated

/-- A call with a token that is admitted is settled by what the runtime replies. -/
theorem yields_settled (h : Gated server admits serve) {s : σ} {request : Request}
    {attempts : List Attempt}
    (hadmitted : ∃ token ∈ attempts.map Attempt.token, admits s (request.withBearer none) token) :
    Yields server s (callWith request attempts)
      (settled request (serve s (request.withBearer none)).1) (serve s (request.withBearer none)).2 := by
  induction attempts with
  | nil => simp at hadmitted
  | cons attempt rest ih =>
    rw [callWith_cons]
    by_cases hfirst : admits s (request.withBearer none) attempt.token
    · refine (Yields.send (h.serves s (request.withBearer attempt.token) hfirst)).bind ?_
      have hserved : refused (serve s ((request.withBearer attempt.token).withBearer none)).1 = false :=
        h.admitted _ _
      rw [hserved]
      exact Yields.pure _ _
    · -- A refusal leaves the state as it was, so the next attempt finds the same gate.
      obtain ⟨body, hrefused⟩ := h.refuses s (request.withBearer attempt.token) hfirst
      refine (Yields.send hrefused).bind (ih ?_)
      obtain ⟨token, htoken, hadmits⟩ := hadmitted
      rcases List.mem_cons.mp htoken with rfl | htoken
      · exact absurd hadmits hfirst
      · exact ⟨token, htoken, hadmits⟩

/-- A call without a token that is admitted comes to nothing. -/
theorem yields_refused (h : Gated server admits serve) {s : σ} {request : Request}
    {attempts : List Attempt}
    (hrefused : ∀ token ∈ attempts.map Attempt.token, ¬ admits s (request.withBearer none) token) :
    Yields server s (callWith request attempts)
      (.ok (.error ("every party was refused (403) by " ++ request.url))) s := by
  induction attempts with
  | nil => exact Yields.pure _ _
  | cons attempt rest ih =>
    rw [List.map_cons, List.forall_mem_cons] at hrefused
    obtain ⟨body, hfirst⟩ := h.refuses s (request.withBearer attempt.token) hrefused.1
    rw [callWith_cons]
    exact (Yields.send hfirst).bind (ih hrefused.2)

/-- **Two calls that try the same tokens come to the same.** -/
theorem alike_call (h : Gated server admits serve) {request : Request} {attempts attempts' : List Attempt}
    (hsame : ∀ tried, tried ∈ attempts.map Attempt.token ↔ tried ∈ attempts'.map Attempt.token) :
    Alike server (callWith request attempts) (callWith request attempts') := by
  intro s
  by_cases hadmitted : ∃ token ∈ attempts.map Attempt.token, admits s (request.withBearer none) token
  · have hadmitted' : ∃ token ∈ attempts'.map Attempt.token,
        admits s (request.withBearer none) token := by
      obtain ⟨token, htoken, hadmits⟩ := hadmitted
      exact ⟨token, (hsame token).mp htoken, hadmits⟩
    exact ⟨_, _, h.yields_settled hadmitted, h.yields_settled hadmitted'⟩
  · have hrefused : ∀ token ∈ attempts.map Attempt.token,
        ¬ admits s (request.withBearer none) token := by
      intro token htoken hadmits
      exact hadmitted ⟨token, htoken, hadmits⟩
    exact ⟨_, _, h.yields_refused hrefused,
      h.yields_refused fun token htoken => hrefused token ((hsame token).mpr htoken)⟩

end Gated

/-! ## Replays through a gate -/

/-- Whether the same tokens are there, under whatever names. -/
def PartyTokens.Same (t t' : PartyTokens) : Prop := ∀ token, t.Holds token ↔ t'.Holds token

theorem PartyTokens.Same.mem_order {t t' : PartyTokens} (h : t.Same t') {hint hint' : Option String}
    {audited audited' : List String} {tried : Option String} :
    tried ∈ (t.order hint audited).map Attempt.token
      ↔ tried ∈ (t'.order hint' audited').map Attempt.token := by
  have hempty : t.isEmpty = true ↔ t'.isEmpty = true := by
    rw [isEmpty_iff, isEmpty_iff]
    exact forall_congr' fun token => not_congr (h token)
  rw [PartyTokens.mem_order, PartyTokens.mem_order, hempty]
  exact or_congr_left (exists_congr fun token => and_congr_right fun _ => h token)

namespace Gated

variable {s : Setup} {tokens : PartyTokens} (hints : PartyHints)

/-- Whatever is made of a call, it is made of the same. -/
theorem alike_after_call {α : Type} (h : Gated server admits serve) (hsame : s.tokens.Same tokens)
    {request : Request} {hint hint' : Option String} {next : Except Failure CallResult → Exchange α} :
    Alike server (callWith request (s.attempts hint) >>= next)
      (callWith request ((s.with tokens hints).attempts hint') >>= next) :=
  (h.alike_call fun _ => hsame.mem_order).bind fun result => .refl (next result)

theorem alike_construct (h : Gated server admits serve) (hsame : s.tokens.Same tokens)
    (action : Action) : Alike server (construct s action) (construct (s.with tokens hints) action) :=
  h.alike_after_call hints hsame

theorem alike_invoke (h : Gated server admits serve) (hsame : s.tokens.Same tokens) (liveId : String)
    (action : Action) :
    Alike server (invoke s liveId action) (invoke (s.with tokens hints) liveId action) :=
  h.alike_after_call hints hsame

theorem alike_compareAfter (h : Gated server admits serve) (hsame : s.tokens.Same tokens)
    (liveId : String) (e : Entry) :
    Alike server (compareAfter s liveId e) (compareAfter (s.with tokens hints) liveId e) := by
  have hchecked : Alike server (checkState s liveId e) (checkState (s.with tokens hints) liveId e) :=
    h.alike_after_call hints hsame
  exact hchecked.bind fun _ => .refl _

theorem alike_callThenCompare {α : Type} (h : Gated server admits serve) (hsame : s.tokens.Same tokens)
    (e : Entry) {call call' : Exchange (Except Failure (Except String α))} (hcall : Alike server call call')
    (rejected : Phase) (liveId : α → String) :
    Alike server (callThenCompare s e call rejected liveId)
      (callThenCompare (s.with tokens hints) e call' rejected liveId) := by
  refine hcall.bind fun called => ?_
  match called with
  | .error f => exact .refl _
  | .ok (.error message) => exact .refl _
  | .ok (.ok a) => exact h.alike_compareAfter hints hsame (liveId a) e

theorem alike_visit (h : Gated server admits serve) (hsame : s.tokens.Same tokens) (phase : Phase)
    (index : Nat) (e : Entry) :
    Alike server (visit s phase index e) (visit (s.with tokens hints) phase index e) := by
  rcases visit_cases phase index e with ⟨message, hvisit⟩ | ⟨_, hvisit⟩ | ⟨liveId, _, hvisit⟩
  all_goals rw [hvisit, hvisit]
  · exact .refl _
  · exact h.alike_callThenCompare hints hsame e (h.alike_construct hints hsame e.action) _ _
  · exact h.alike_callThenCompare hints hsame e (h.alike_invoke hints hsame liveId e.action) _ _

/-- A run is a row of visits, each in the phase in which the one before it ended. -/
theorem alike_visitAll (h : Gated server admits serve) (hsame : s.tokens.Same tokens) (phase : Phase)
    (index : Nat) (entries : List Entry) :
    Alike server (visitAll s phase index entries)
      (visitAll (s.with tokens hints) phase index entries) := by
  induction entries generalizing phase index with
  | nil => exact .refl _
  | cons e rest ih =>
    refine (h.alike_visit hints hsame phase index e).bind fun visited => ?_
    cases visited with
    | error f => exact .refl _
    | ok v => exact (ih v.phase (index + 1)).bind fun _ => .refl _

end Gated

end

/-! ## How replays end -/

/-- A program fails in one way only: it is cancelled. -/
def FailsOnlyCancelled {α : Type} (x : Exchange (Except Failure α)) : Prop :=
  ∀ sent f, Generates x sent (.error f) → f = .cancelled

theorem failsOnlyCancelled_callWith (request : Request) (attempts : List Attempt) :
    FailsOnlyCancelled (callWith request attempts) := by
  intro sent f h
  generalize houtcome : (.error f : Except Failure CallResult) = outcome at h
  cases search_of_generates h with
  | exhausted message hsent hrefused => exact absurd houtcome (by simp)
  | settled attempt after hsent hrefused hreply => exact (settled_eq_error.mp houtcome.symm).1

theorem compositional_failsOnlyCancelled : Compositional FailsOnlyCancelled where
  call := failsOnlyCancelled_callWith
  result := by
    intro α a sent f h
    exact absurd (generates_pure.mp h).2 (by simp)
  bind := by
    intro α β x next hx herror hok sent f h
    obtain ⟨before, after, outcome, rfl, hfirst, hrest⟩ := generates_bind.mp h
    cases outcome with
    | error g =>
      rw [herror, generates_pure] at hrest
      rw [Except.error.inj hrest.2]
      exact hx before g hfirst
    | ok a => exact hok a after f hrest

/-- A replay of a log whose first entry has an identity ends with a report, or it is cancelled. -/
theorem report_or_cancelled {σ : Type} {server : σ → Request → Reply × σ} {s : Setup}
    {entries : List Entry} {state state' : σ} {outcome : Except Failure (List (Entry × Visit))}
    (h : Yields server state (visitAll s .awaitingConstruction 0 entries) outcome state') :
    (∃ visits, outcome = .ok visits) ∨ outcome = .error .cancelled := by
  have hpath := generates_against server (visitAll s .awaitingConstruction 0 entries) state
  rw [h.1] at hpath
  cases outcome with
  | ok visits => exact Or.inl ⟨visits, rfl⟩
  | error f =>
    exact Or.inr (congrArg Except.error (compositional_failsOnlyCancelled.visitAll s _ 0 entries _ f hpath))

/-- **Hints and names of tokens do not change how a replay ends.** Behind a gate, two replays of one log
with the same tokens end with the same report, or both are cancelled, and they leave the runtime in the same
state. -/
theorem same_verdict_of_same_tokens {σ : Type} {server serve : σ → Request → Reply × σ}
    {admits : σ → Request → Option String → Prop} (hgate : Gated server admits serve) (state : σ)
    (baseUrl : String) {log : Log} {first : Entry} {rest : List Entry} {identity : Identity}
    (hentries : log.entries = first :: rest) (hidentity : Identity.parse first.id = .ok identity)
    {tokens tokens' : PartyTokens} (hsame : tokens.Same tokens') (hints hints' : PartyHints) :
    let ended := (replayWith baseUrl log tokens hints).against server state
    let ended' := (replayWith baseUrl log tokens' hints').against server state
    ((∃ report, ended.1 = .ok report ∧ ended'.1 = .ok report)
        ∨ ended.1 = .error .cancelled ∧ ended'.1 = .error .cancelled)
      ∧ ended.2.2 = ended'.2.2 := by
  intro ended ended'
  have hsetup := setup_eq_with baseUrl hentries hidentity tokens hints
  have hsetup' := setup_eq_with baseUrl hentries hidentity tokens' hints'
  have htokens : ((Setup.bare baseUrl log identity).with tokens hints).tokens.Same tokens' := hsame
  obtain ⟨outcome, state', hrun, hrun'⟩ :=
    hgate.alike_visitAll hints' htokens .awaitingConstruction 0 log.entries state
  have hended : Yields server state (replayWith baseUrl log tokens hints)
      (outcome.map report) state' := by
    rw [replayWith, hsetup]
    exact hrun.bind (Yields.pure _ _)
  have hended' : Yields server state (replayWith baseUrl log tokens' hints')
      (outcome.map report) state' := by
    rw [replayWith, hsetup']
    exact hrun'.bind (Yields.pure _ _)
  refine ⟨?_, hended.2.trans hended'.2.symm⟩
  rcases report_or_cancelled hrun with ⟨visits, rfl⟩ | rfl
  · exact Or.inl ⟨report visits, hended.1, hended'.1⟩
  · exact Or.inr ⟨hended.1, hended'.1⟩

/-! ## A runtime of two parties -/

/-- What the runtime does once a request got through: it constructs an instance that never changes. -/
def twoPartyRuntime (calls : Nat) (r : Request) : Reply × Nat :=
  match r.method with
  | .post => (.ok ⟨200, "\x7b\"@id\":\"1\"\x7d"⟩, calls + 1)
  | .get => (.ok ⟨200, "\x7b\x7d"⟩, calls)

/-- The issuer may construct the instance, and the payee may do everything after that. -/
def twoPartyToken (calls : Nat) : String := if calls = 0 then "issuer-token" else "payee-token"

/-- The runtime behind a gate that knows the two parties. -/
def twoPartyGate (calls : Nat) (r : Request) : Reply × Nat :=
  if r.bearer = some (twoPartyToken calls) then twoPartyRuntime calls r
  else (.ok ⟨403, "forbidden"⟩, calls)

theorem gated_twoPartyGate :
    Gated twoPartyGate (fun calls _ token => token = some (twoPartyToken calls)) twoPartyRuntime where
  refuses := fun _ _ hrefused => ⟨"forbidden", if_neg hrefused⟩
  serves := fun _ _ hadmitted => if_pos hadmitted
  admitted := by
    intro calls r
    unfold twoPartyRuntime
    cases r.method <;> rfl

/-- The tokens of both parties under their names, and the same tokens with none of these names: the report on
a construction and a payment is the same. -/
theorem same_verdict_two_parties :
    let tokens : PartyTokens := ⟨[("issuer", "issuer-token"), ("payee", "payee-token")], none⟩
    let tokens' : PartyTokens := ⟨[("somebody", "payee-token")], some "issuer-token"⟩
    let ended := (replayWith "http://localhost" unkindedLog tokens .none).against twoPartyGate 0
    let ended' := (replayWith "http://localhost" unkindedLog tokens' .none).against twoPartyGate 0
    tokens.Same tokens'
      ∧ ((∃ report, ended.1 = .ok report ∧ ended'.1 = .ok report)
        ∨ ended.1 = .error .cancelled ∧ ended'.1 = .error .cancelled)
      ∧ ended.2.2 = ended'.2.2 := by
  intro tokens tokens' ended ended'
  have hnames : ByName.Sorted tokens.byParty := by
    have hpairs : ["issuer", "payee"].Pairwise (· < ·) := by decide +kernel
    exact List.pairwise_map.mp hpairs
  have hnames' : ByName.Sorted tokens'.byParty := List.pairwise_singleton _ _
  have hsame : tokens.Same tokens' := by
    intro token
    rw [PartyTokens.holds_iff_mem hnames, PartyTokens.holds_iff_mem hnames']
    simp [tokens, tokens', or_comm, eq_comm]
  obtain ⟨identity, hidentity⟩ : ∃ identity, Identity.parse
      "urn:npl:localhost/npl/demo/Iou/00000000-0000-0000-0000-000000000000#0" = .ok identity := by
    exact ⟨_, rfl⟩
  exact ⟨hsame, same_verdict_of_same_tokens gated_twoPartyGate 0 "http://localhost" rfl hidentity hsame
    .none .none⟩

end AuditTrail.Replay
