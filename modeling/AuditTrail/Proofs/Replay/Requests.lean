import AuditTrail.Proofs.Replay.Run
import AuditTrail.Proofs.Replay.Tokens

/-!
# Where credentials go

Two kinds of secrets pass through a replay. A name with its password goes into a form that is posted to the
configured URL, and nowhere else (`all_resolve`). A token goes into a call of the runtime. Which calls these
can be is fixed by the URL of the runtime, the log, and what the runtime answered to the constructor
(`Setup.requests`): constructions of the entries, and once there is a live id the state and the actions under
it.

The live id is a text of the runtime's choice, and the names of actions are those of whoever wrote the log.
Nothing is assumed of either. In a URL they stand after the route of the protocol, so whatever they are, the
URL starts with the route (`Setup.onRoute_of_mem_requests`).

> Passwords are exchanged before the first call, only where they belong, and no call leaves the route of the
> protocol or depends on a secret other than by its token (`replay_confined`).
-/

namespace AuditTrail

open Http (Exchange Request Response Reply Body)
open Http.Exchange (All Ends Generates all_pure all_send ends_pure generates_against generates_bind
  generates_pure generates_send against_bind)

/-! ## Passwords -/

namespace LocalConfig

/-- Whether a name and password are configured, for a party or for all parties together. -/
def Knows (config : LocalConfig) (who : Credentials) : Prop :=
  (∃ party, (party, who) ∈ config.parties)
    ∨ config.username = some who.username ∧ config.password = some who.password

/-- Whether a request exchanges a configured name and password at the configured URL. It has no token. -/
def Grants (config : LocalConfig) (r : Request) : Prop :=
  ∃ url who, config.authUrl = some url ∧ config.Knows who
    ∧ r = Request.postForm url (Replay.grantForm config who)

end LocalConfig

namespace Replay

section

variable {config : LocalConfig}

theorem all_grant {who : Credentials} (h : config.Knows who) : All config.Grants (grant config who) := by
  unfold grant
  split
  · rename_i url hurl
    exact (all_send.mpr ⟨url, who, hurl, h, rfl⟩).bind fun _ _ _ => all_pure _
  · exact all_pure _

theorem all_grantEach {parties : List (String × Credentials)} (h : ∀ p ∈ parties, config.Knows p.2) :
    All config.Grants (grantEach config parties) := by
  induction parties with
  | nil => exact all_pure _
  | cons p rest ih =>
    rw [List.forall_mem_cons] at h
    exact (all_grant h.1).bind fun _ _ _ => (ih h.2).bind fun _ _ _ => all_pure _

theorem all_legacyToken : All config.Grants (legacyToken config) := by
  unfold legacyToken
  split
  · exact all_pure _
  · rename_i username password _ husername hpassword
    exact all_grant (Or.inr ⟨husername, hpassword⟩)
  · exact all_pure _

/-- **All that is sent to get tokens are exchanges of configured names and passwords.** -/
theorem all_resolve : All config.Grants (PartyTokens.resolve config) := by
  refine (all_grantEach fun p hp => Or.inl ⟨p.1, hp⟩).bind fun _ _ _ => ?_
  exact all_legacyToken.bind fun _ _ _ => all_pure _

end

/-! ## Calls -/

/-- Whether tokens allow a request to have a bearer: one of them, or none if there are none. -/
structure PartyTokens.Authorizes (t : PartyTokens) (bearer : Option String) : Prop where
  held : ∀ token, bearer = some token → t.Holds token
  anonymous : bearer = none → t.isEmpty = true

namespace Setup

/-- What is asked once the instance has a live id: its state, and what its actions do. -/
def questions (s : Setup) (entries : List Entry) : Option String → List Request
  | some liveId =>
    Request.get (s.instanceUrl liveId) :: entries.map fun e => s.invocation liveId e.action
  | none => []

/-- The live id in a response to the constructor. -/
def liveId? (s : Setup) (constructed : Response) : Option String :=
  (constructed.record s.constructorUrl liveIdOfTree?).toOption

/-- The requests that a replay of entries can send, by what the runtime answered to the constructor. -/
def requests (s : Setup) (entries : List Entry) (constructed : Option Response) : List Request :=
  entries.map (fun e => s.construction e.action) ++ s.questions entries (constructed.bind s.liveId?)

/-- Whether a request is a known one with a token of the replay. -/
def Tries (s : Setup) (known : List Request) (r : Request) : Prop :=
  r.withBearer none ∈ known ∧ s.tokens.Authorizes r.bearer

end Setup

section

variable {s : Setup} {known : List Request} {entries : List Entry} {e : Entry} {liveId : String}
  {index : Nat}

theorem Setup.Tries.mono {known' : List Request} (h : known ⊆ known') {r : Request}
    (hr : s.Tries known r) : s.Tries known' r := ⟨h hr.1, hr.2⟩

theorem construction_mem_requests {constructed : Option Response} (he : e ∈ entries) :
    s.construction e.action ∈ s.requests entries constructed :=
  List.mem_append_left _ (List.mem_map_of_mem he)

theorem questions_subset_requests {constructed : Option Response}
    (hid : constructed.bind s.liveId? = some liveId) :
    s.questions entries (some liveId) ⊆ s.requests entries constructed := by
  unfold Setup.requests
  rw [hid]
  exact List.subset_append_right _ _

/-- What is known without an answer to the constructor is known with one. -/
theorem requests_none_subset {constructed : Option Response} :
    s.requests entries none ⊆ s.requests entries constructed := by
  unfold Setup.requests
  rw [Option.bind_none, Setup.questions, List.append_nil]
  exact List.subset_append_left _ _

theorem all_callWith {p : Request → Prop} {request : Request} {attempts : List Attempt}
    (h : ∀ token ∈ attempts.map Attempt.token, p (request.withBearer token)) :
    All p (callWith request attempts) := by
  induction attempts with
  | nil => exact all_pure _
  | cons attempt rest ih =>
    rw [List.map_cons, List.forall_mem_cons] at h
    rw [callWith_cons]
    refine (all_send.mpr h.1).bind fun _ reply _ => ?_
    split
    · exact ih h.2
    · exact all_pure _

/-- A call is tried with the tokens there are. -/
theorem all_attempts {request : Request} (hknown : request.withBearer none ∈ known)
    (hint : Option String) : All (s.Tries known) (callWith request (s.attempts hint)) := by
  refine all_callWith fun tried htried => ⟨hknown, ?_⟩
  rcases PartyTokens.mem_order.mp htried with ⟨token, rfl, hholds⟩ | ⟨rfl, hempty⟩
  · exact ⟨fun _ heq => Option.some.inj heq ▸ hholds, fun hnone => absurd hnone (by simp [Request.withBearer])⟩
  · exact ⟨fun _ heq => absurd heq (by simp [Request.withBearer]), fun _ => hempty⟩

theorem all_construct (hknown : s.construction e.action ∈ known) :
    All (s.Tries known) (construct s e.action) := by
  rw [construct_eq]
  exact (all_attempts hknown _).bind fun _ _ _ => all_pure _

theorem all_invoke (hknown : s.invocation liveId e.action ∈ known) :
    All (s.Tries known) (invoke s liveId e.action) := by
  rw [invoke_eq]
  exact (all_attempts hknown _).bind fun _ _ _ => all_pure _

theorem all_compareAfter (hknown : Request.get (s.instanceUrl liveId) ∈ known) :
    All (s.Tries known) (compareAfter s liveId e) := by
  have hcheck : All (s.Tries known) (checkState s liveId e) := by
    rw [checkState_eq]
    exact (all_attempts hknown _).bind fun _ _ _ => all_pure _
  exact hcheck.bind fun _ _ _ => all_pure _

/-! ## An instance stays where it is -/

/-- With a live id only the instance is called. -/
theorem all_invocation (he : e ∈ entries) :
    All (s.Tries (s.questions entries (some liveId)))
      (callThenCompare s e (invoke s liveId e.action) (.active liveId) fun _ => liveId) := by
  have hcall : s.invocation liveId e.action ∈ s.questions entries (some liveId) :=
    List.mem_cons_of_mem _ (List.mem_map_of_mem he)
  refine (all_invoke hcall).bind fun _ called _ => ?_
  match called with
  | .error f => exact all_pure _
  | .ok (.error message) => exact all_pure _
  | .ok (.ok ()) => exact all_compareAfter List.mem_cons_self

/-- A visit ends in a phase, unless it is cancelled. -/
def EndsIn (phase : Phase) (outcome : Except Failure Visit) : Prop := ∀ v, outcome = .ok v → v.phase = phase

theorem endsIn_error {phase : Phase} {f : Failure} : EndsIn phase (.error f) := nofun

theorem endsIn_ok {v : Visit} : EndsIn v.phase (.ok v) := by
  rintro _ ⟨rfl⟩
  rfl

theorem ends_compareAfter : Ends (EndsIn (.active liveId)) (compareAfter s liveId e) := by
  refine Ends.bind (p := fun _ => True) (fun _ _ _ => trivial) fun outcome _ => ends_pure ?_
  cases outcome with
  | error f => exact endsIn_error
  | ok result => exact endsIn_ok

theorem ends_invocation : Ends (EndsIn (.active liveId))
    (callThenCompare s e (invoke s liveId e.action) (.active liveId) fun _ => liveId) := by
  refine Ends.bind (p := fun _ => True) (fun _ _ _ => trivial) fun called _ => ?_
  match called with
  | .error f => exact ends_pure endsIn_error
  | .ok (.error message) => exact ends_pure endsIn_ok
  | .ok (.ok ()) => exact ends_compareAfter

/-! ## One entry after the other -/

/-- What was sent is known, by what the runtime answered to a constructor that was sent. -/
structure Confined (s : Setup) (entries : List Entry) (constructed : Option Response)
    (sent : List (Request × Reply)) : Prop where
  replied : ∀ response, constructed = some response →
    ∃ e ∈ entries, ∃ token, ((s.construction e.action).withBearer token, .ok response) ∈ sent
  tries : ∀ exchanged ∈ sent, s.Tries (s.requests entries constructed) exchanged.1

/-- Whether a phase is that of a replay with a given answer to the constructor. -/
def Phase.Follows (s : Setup) (constructed : Option Response) : Phase → Prop
  | .active liveId => constructed.bind s.liveId? = some liveId
  | _ => constructed = none

theorem Confined.nil : Confined s entries none [] := ⟨nofun, nofun⟩

theorem Confined.append {before after : List (Request × Reply)} {constructed : Option Response}
    (hbefore : Confined s entries constructed before)
    (hafter : ∀ exchanged ∈ after, s.Tries (s.requests entries constructed) exchanged.1) :
    Confined s entries constructed (before ++ after) := by
  refine ⟨fun response hresponse => ?_, List.forall_mem_append.mpr ⟨hbefore.tries, hafter⟩⟩
  obtain ⟨e, he, token, hmem⟩ := hbefore.replied response hresponse
  exact ⟨e, he, token, List.mem_append_left _ hmem⟩

/-- An answer to the constructor adds to what is known. -/
theorem Confined.construct {before after : List (Request × Reply)} {response : Response}
    {token : Option String} (hbefore : Confined s entries none before) (he : e ∈ entries)
    (hreplied : ((s.construction e.action).withBearer token, .ok response) ∈ after)
    (hafter : ∀ exchanged ∈ after, s.Tries (s.requests entries none) exchanged.1) :
    Confined s entries (some response) (before ++ after) := by
  refine ⟨?_, fun exchanged hmem =>
    ((hbefore.append hafter).tries exchanged hmem).mono requests_none_subset⟩
  rintro _ ⟨rfl⟩
  exact ⟨e, he, token, List.mem_append_right _ hreplied⟩

/-- The live id of a construction is the one in the response to it. -/
theorem replied_of_construct {sent : List (Request × Reply)}
    (h : Generates (construct s e.action) sent (.ok (.ok liveId))) :
    ∃ response, s.liveId? response = some liveId
      ∧ ∃ token, ((s.construction e.action).withBearer token, .ok response) ∈ sent := by
  rw [construct_eq] at h
  obtain ⟨before, after, outcome, rfl, hcall, hrest⟩ := generates_bind.mp h
  obtain ⟨rfl, heq⟩ := generates_pure.mp hrest
  cases outcome with
  | error f => exact absurd heq (by simp [Except.map])
  | ok called =>
    obtain ⟨response, rfl, hid⟩ := Setup.constructed_eq_ok.mp (Except.ok.inj heq).symm
    obtain ⟨token, hmem⟩ := replied_of_generates hcall
    refine ⟨response, ?_, token, List.mem_append_left _ hmem⟩
    rw [Setup.liveId?, hid]
    rfl

section

variable {past sent : List (Request × Reply)} {phase : Phase} {constructed : Option Response}

/-- What comes after the answer to a construction is asked under its live id. -/
theorem confined_construction {outcome : Except Failure Visit}
    (h : Generates (callThenCompare s e (construct s e.action) .failed fun liveId => liveId) sent outcome)
    (he : e ∈ entries) (hpast : Confined s entries none past) :
    ∃ constructed, Confined s entries constructed (past ++ sent)
      ∧ ∀ v, outcome = .ok v → v.phase.Follows s constructed := by
  obtain ⟨posts, gets, called, rfl, hconstruct, hrest⟩ := generates_bind.mp h
  have hposts : ∀ exchanged ∈ posts, s.Tries (s.requests entries none) exchanged.1 :=
    (all_construct (construction_mem_requests he)).of_generates hconstruct
  match called with
  | .error f =>
    obtain ⟨rfl, rfl⟩ := generates_pure.mp hrest
    exact ⟨none, hpast.append (by simpa using hposts), nofun⟩
  | .ok (.error message) =>
    obtain ⟨rfl, rfl⟩ := generates_pure.mp hrest
    refine ⟨none, hpast.append (by simpa using hposts), ?_⟩
    rintro _ ⟨rfl⟩
    rfl
  | .ok (.ok liveId) =>
    obtain ⟨response, hid, token, hreplied⟩ := replied_of_construct hconstruct
    have hgets : ∀ exchanged ∈ gets,
        s.Tries (s.questions entries (some liveId)) exchanged.1 :=
      (all_compareAfter List.mem_cons_self).of_generates hrest
    have hknown : s.questions entries (some liveId) ⊆ s.requests entries (some response) :=
      questions_subset_requests hid
    refine ⟨some response, ?_, fun v hv => ?_⟩
    · rw [← List.append_assoc]
      exact (hpast.construct he hreplied hposts).append fun exchanged hmem =>
        (hgets exchanged hmem).mono hknown
    · rw [ends_compareAfter gets outcome hrest v hv]
      exact hid

/-- **What is sent for one entry is known**, whatever the runtime answers. -/
theorem confined_visit {outcome : Except Failure Visit}
    (h : Generates (visit s phase index e) sent outcome) (he : e ∈ entries)
    (hpast : Confined s entries constructed past) (hphase : phase.Follows s constructed) :
    ∃ constructed, Confined s entries constructed (past ++ sent)
      ∧ ∀ v, outcome = .ok v → v.phase.Follows s constructed := by
  rcases visit_cases phase index e with ⟨message, hvisit⟩ | ⟨rfl, hvisit⟩ | ⟨liveId, rfl, hvisit⟩
  all_goals rw [hvisit] at h
  · obtain ⟨rfl, rfl⟩ := generates_pure.mp h
    refine ⟨constructed, by simpa using hpast, ?_⟩
    rintro _ ⟨rfl⟩
    exact hphase
  · obtain rfl : constructed = none := hphase
    exact confined_construction h he hpast
  · refine ⟨constructed, hpast.append fun exchanged hmem => ?_, fun v hv => ?_⟩
    · have htries := (all_invocation he).of_generates h exchanged hmem
      exact htries.mono (questions_subset_requests hphase)
    · rw [ends_invocation sent outcome h v hv]
      exact hphase

/-- A run is a row of visits. -/
theorem confined_visitAll {visited : List Entry} {outcome : Except Failure (List (Entry × Visit))}
    (h : Generates (visitAll s phase index visited) sent outcome) (hvisited : visited ⊆ entries)
    (hpast : Confined s entries constructed past) (hphase : phase.Follows s constructed) :
    ∃ constructed, Confined s entries constructed (past ++ sent) := by
  -- What the runtime answered so far goes along with the phase, so the rest of the run adds an answer only
  -- if it is still to construct the instance.
  induction visited generalizing phase index past sent outcome constructed with
  | nil =>
    obtain ⟨rfl, rfl⟩ := generates_pure.mp h
    exact ⟨constructed, by simpa using hpast⟩
  | cons e rest ih =>
    obtain ⟨he, hrest⟩ := List.cons_subset.mp hvisited
    obtain ⟨before, after, visited, rfl, hvisit, hmore⟩ := generates_bind.mp h
    obtain ⟨constructed', hbefore, hfollows⟩ := confined_visit hvisit he hpast hphase
    rw [← List.append_assoc]
    cases visited with
    | error f =>
      obtain ⟨rfl, rfl⟩ := generates_pure.mp hmore
      exact ⟨constructed', by simpa using hbefore⟩
    | ok v =>
      obtain ⟨calls, nothing, visits, rfl, hcalls, hdone⟩ := generates_bind.mp hmore
      obtain ⟨rfl, rfl⟩ := generates_pure.mp hdone
      rw [List.append_nil]
      exact ih hcalls hrest hbefore (hfollows v rfl)

end

end

/-! ## Whole replays -/

/-- What every URL of a protocol on a runtime starts with. -/
def protocolUrl (baseUrl : String) (identity : Identity) : String :=
  String.ofList (Text.trimEnd (· == '/') baseUrl.toList) ++ "/npl/" ++ identity.packagePath ++ "/"
    ++ identity.protocolName ++ "/"

theorem Setup.bare_route (baseUrl : String) (log : Log) (identity : Identity) :
    (Setup.bare baseUrl log identity).route ++ "/" = protocolUrl baseUrl identity := by
  unfold Setup.bare protocolUrl Identity.route
  simp only [String.append_assoc]

/-- Whether a request posts a value, or gets what is there, at a URL that starts with a text. -/
structure CallsUnder (start : String) (r : Request) : Prop where
  url : ∃ rest, r.url = start ++ rest
  shape : (r.method = .post ∧ ∃ value, r.body = .json value) ∨ (r.method = .get ∧ r.body = .empty)

/-- **No request of a replay leaves the route of the protocol**, whatever its live id is. -/
theorem Setup.onRoute_of_mem_requests {s : Setup} {entries : List Entry} {constructed : Option Response}
    {r : Request} (h : r ∈ s.requests entries constructed) : CallsUnder (s.route ++ "/") r := by
  rcases List.mem_append.mp h with h | h
  · obtain ⟨e, _, rfl⟩ := List.mem_map.mp h
    exact ⟨⟨"", String.append_empty.symm⟩, Or.inl ⟨rfl, _, rfl⟩⟩
  · unfold Setup.questions at h
    split at h
    · rename_i liveId _
      rcases List.mem_cons.mp h with rfl | h
      · exact ⟨⟨liveId ++ "/", String.append_assoc⟩, Or.inr ⟨rfl, rfl⟩⟩
      · obtain ⟨e, _, rfl⟩ := List.mem_map.mp h
        refine ⟨⟨liveId ++ "/" ++ e.action.name, ?_⟩, Or.inl ⟨rfl, _, rfl⟩⟩
        simp only [Setup.invocation, Request.postJson, Setup.instanceUrl, String.append_assoc]
    · exact absurd h List.not_mem_nil

/-- The identity that a log is replayed under, which is that of its first entry. -/
def identity? (log : Log) : Option Identity :=
  log.entries.head?.bind fun first => (Identity.parse first.id).toOption

/-- A request to the runtime: a known one, on the route of the protocol, with a token of the replay. Without
its token it does not depend on any. -/
structure CallOf (baseUrl : String) (log : Log) (tokens : PartyTokens) (constructed : Option Response)
    (identity : Identity) (r : Request) : Prop where
  known : r.withBearer none ∈ (Setup.bare baseUrl log identity).requests log.entries constructed
  under : CallsUnder (protocolUrl baseUrl identity) r
  authorized : tokens.Authorizes r.bearer

/-- What a replay may send to the runtime, by what the runtime answered to the constructor. -/
structure Discreet (baseUrl : String) (log : Log) (tokens : PartyTokens) (constructed : Option Response)
    (calls : List (Request × Reply)) : Prop where
  called : ∀ exchanged ∈ calls, ∃ identity, identity? log = some identity
    ∧ CallOf baseUrl log tokens constructed identity exchanged.1
  replied : ∀ response, constructed = some response → ∃ identity, identity? log = some identity
    ∧ ∃ exchanged ∈ calls, exchanged.1.method = .post ∧ exchanged.1.url = protocolUrl baseUrl identity
      ∧ exchanged.2 = .ok response

section

variable {baseUrl : String} {log : Log} {tokens : PartyTokens} {hints : PartyHints}
  {calls : List (Request × Reply)}

theorem Discreet.nil : Discreet baseUrl log tokens none [] := ⟨nofun, nofun⟩

theorem Confined.discreet {identity : Identity} {constructed : Option Response}
    (hidentity : identity? log = some identity)
    (h : Confined ((Setup.bare baseUrl log identity).with tokens hints) log.entries constructed calls) :
    Discreet baseUrl log tokens constructed calls where
  called := by
    intro exchanged hmem
    obtain ⟨hknown, hauthorized⟩ := h.tries exchanged hmem
    have hunder := Setup.onRoute_of_mem_requests hknown
    rw [show ((Setup.bare baseUrl log identity).with tokens hints).route ++ "/" = _ from
      Setup.bare_route baseUrl log identity] at hunder
    exact ⟨identity, hidentity, hknown, ⟨hunder.url, hunder.shape⟩, hauthorized⟩
  replied := by
    intro response hresponse
    obtain ⟨e, _, token, hmem⟩ := h.replied response hresponse
    exact ⟨identity, hidentity, _, hmem, rfl, Setup.bare_route baseUrl log identity, rfl⟩

/-- A replay with any tokens and hints calls discreetly. A log without an identity is not called about. -/
theorem discreet_of_generates {outcome : Except Failure ReplayReport}
    (h : Generates (replayWith baseUrl log tokens hints) calls outcome) :
    ∃ constructed, Discreet baseUrl log tokens constructed calls := by
  cases hentries : log.entries with
  | nil =>
    rw [replayWith, setup, hentries] at h
    obtain ⟨rfl, rfl⟩ := generates_pure.mp h
    exact ⟨none, .nil⟩
  | cons first rest =>
    cases hparsed : Identity.parse first.id with
    | error fault =>
      have hsetup : setup baseUrl log tokens hints = .error (.malformedIdentity first.id fault.reason) := by
        rw [setup, hentries]
        dsimp only
        rw [identityOf, hparsed]
        rfl
      rw [replayWith, hsetup] at h
      obtain ⟨rfl, rfl⟩ := generates_pure.mp h
      exact ⟨none, .nil⟩
    | ok identity =>
      have hidentity : identity? log = some identity := by
        rw [identity?, hentries, List.head?_cons, Option.bind_some, hparsed]
        rfl
      rw [replayWith, setup_eq_with baseUrl hentries hparsed] at h
      obtain ⟨sent, nothing, visits, rfl, hvisits, hdone⟩ := generates_bind.mp h
      obtain ⟨rfl, rfl⟩ := generates_pure.mp hdone
      obtain ⟨constructed, hconfined⟩ :=
        confined_visitAll hvisits (List.Subset.refl _) Confined.nil rfl
      rw [List.append_nil]
      exact ⟨constructed, hconfined.discreet hidentity⟩

end

section

variable {w : Workspace} {baseUrl : String} {log : Log} {sources : Path}

theorem replay_malformed {first : Entry} {fault : Identity.Fault}
    (hfirst : log.entries.head? = some first) (hparsed : Identity.parse first.id = .error fault) :
    replay w baseUrl log sources = pure (.error (.malformedIdentity first.id fault.reason)) := by
  obtain ⟨rest, hentries⟩ := List.head?_eq_some_iff.mp hfirst
  unfold replay
  rw [hentries]
  dsimp only
  rw [identityOf, hparsed]
  rfl

/-- Without a malformed identity, a replay is one of the configuration. -/
theorem replay_eq
    (hparsed : ∀ first fault, log.entries.head? = some first → Identity.parse first.id ≠ .error fault) :
    (∀ f, LocalConfig.load w sources = .error f → replay w baseUrl log sources = pure (.error f))
      ∧ ∀ config, LocalConfig.load w sources = .ok config → replay w baseUrl log sources = (do
        let tokens ← PartyTokens.resolve config
        replayWith baseUrl log tokens (.scan w sources)) := by
  cases hentries : log.entries with
  | nil =>
    constructor
    all_goals
      intro found hload
      simp only [replay, hentries, hload]
  | cons first rest =>
    cases hid : Identity.parse first.id with
    | error fault =>
      have hfirst : log.entries.head? = some first := by rw [hentries, List.head?_cons]
      exact absurd hid (hparsed first fault hfirst)
    | ok identity =>
      constructor
      all_goals
        intro found hload
        simp only [replay, hentries, identityOf, hid, Except.mapError, Except.map, hload]

end

/-- A runtime that gives its instance an id with a way out of the route in it. -/
def strayingRuntime (requests : Nat) (_ : Request) : Reply × Nat :=
  (.ok ⟨200, if requests = 0 then "\x7b\"@id\":\"../../../admin\"\x7d" else "\x7b\x7d"⟩, requests + 1)

-- The way out stands after the route.
example : ((replayWith "http://localhost/" unkindedLog ⟨[("issuer", "secret")], none⟩ .none).against
      strayingRuntime 0).2.1.map (fun exchanged => exchanged.1.url)
    = ["http://localhost/npl/demo/Iou/", "http://localhost/npl/demo/Iou/../../../admin/",
      "http://localhost/npl/demo/Iou/../../../admin/pay",
      "http://localhost/npl/demo/Iou/../../../admin/"] := by
  decide +kernel

end Replay

end AuditTrail
