import AuditTrail.Proofs.Identity.Grammar
import AuditTrail.Proofs.Issuer.Issue
import AuditTrail.Proofs.Json.Wire
import AuditTrail.Proofs.Log.Commitment
import AuditTrail.Proofs.Replay.Addressed
import AuditTrail.Proofs.Replay.Run
import AuditTrail.Proofs.Signature.Binding
import AuditTrail.Proofs.Simulation.Runtime

/-!
# Replaying a log on a runtime that serves its states

An issued log and a runtime can come from the same templates: the log records the hashes of the states
under the audited id, and the runtime serves the states under a live id of its own. On such a runtime
nothing is refused, so the progress of the runtime and the position in the log go together
(`Setup.HostedBy.yields_calls`), and all that can go wrong is a comparison.

> A state is compared by the names of the final state. So the replay finds no error as long as no state
> has a name that the final one lacks (`faithful_runtime_replayed`).

Fields that appear on the way are fine. A field that is there for a while and gone at the end is part of
the recorded hash, and not of the compared state: then a runtime that does everything right is reported as
diverging (`faithful_runtime_settled`).
-/

namespace AuditTrail.Replay

open Http (Exchange Request Response Reply)
open Http.Exchange (Yields)
open Signature (Scheme openScheme)
open Simulation (Runtime)
open Template (instantiate)

/-! ## Calls that are accepted at once -/

/-- A call that every token is good for takes one request. -/
theorem yields_accepted {σ : Type} {server : σ → Request → Reply × σ} {state state' : σ}
    {request : Request} {attempts : List Attempt} {response : Response} (hattempts : attempts ≠ [])
    (hserver : ∀ token, server state (request.withBearer token) = (.ok response, state'))
    (hstatus : response.status = 200) :
    Yields server state (callWith request attempts) (.ok (.ok response)) state' := by
  cases attempts with
  | nil => exact absurd rfl hattempts
  | cons attempt rest =>
    refine (Yields.send (hserver attempt.token)).bind ?_
    have hsuccess : response.isSuccess = true := by simp [Response.isSuccess, hstatus]
    simp only [hstatus, hsuccess]
    exact Yields.pure _ _

/-- A replay goes to the base and the route of an open runtime. -/
structure Setup.HostedBy (s : Setup) (rt : Runtime) : Prop where
  isOpen : rt.IsOpen
  route : s.route.toList = rt.root

/-- A template of states that can be sent and read back, and that names the instance where ids are
replaced. -/
structure IsTemplate (live : String) (template : Json) : Prop where
  members : ∃ members, template = .object members ∧ Addressed live members
  wellFormed : template.WellFormed
  depth : template.depth ≤ Json.Tree.maxDepth

namespace Setup.HostedBy

variable {rt : Runtime} {s : Setup} {e : Entry} {index calls : Nat} {template : Json}

theorem record_id (s : Setup) (liveId : String) :
    Response.record ⟨200, (Json.ofMembers [("@id", .string liveId)]).wire⟩ s.constructorUrl
      liveIdOfTree? = .ok liveId := by
  unfold Response.record Json.readAs?
  rw [Json.read?_chars_wire]
  rfl

theorem yields_construct (h : s.HostedBy rt) (p : Simulation.Progress) :
    Yields rt.serve p (construct s e.action) (.ok (.ok rt.liveId)) ⟨true, 1⟩ := by
  have hurl : s.constructorUrl.toList = rt.root ++ ['/'] := by
    simp [constructorUrl, String.toList_append, h.route]
  refine (yields_accepted (order_ne_nil _ _ _) (fun token =>
    h.isOpen.serve_construction (r := (s.construction e.action).withBearer token) rfl hurl) rfl).bind ?_
  simp only [record_id]
  exact Yields.pure _ _

theorem yields_invoke (h : s.HostedBy rt) (hname : e.action.name ≠ "") :
    Yields rt.serve ⟨true, calls⟩ (invoke s rt.liveId e.action) (.ok (.ok ())) ⟨true, calls + 1⟩ := by
  have hurl : (s.invocation rt.liveId e.action).url.toList
      = rt.root ++ '/' :: (rt.liveId.toList ++ '/' :: e.action.name.toList) := by
    simp [invocation, instanceUrl, Request.postJson, String.toList_append, h.route]
  have haction : e.action.name.toList ≠ [] := by simpa [String.toList_eq_nil_iff] using hname
  exact (yields_accepted (order_ne_nil _ _ _) (fun token => h.isOpen.serve_call
    (r := (s.invocation rt.liveId e.action).withBearer token) rfl hurl haction rfl) rfl).bind
      (Yields.pure _ _)

theorem yields_checkState (h : s.HostedBy rt) (htemplate : rt.states[calls]? = some template)
    (hwell : template.WellFormed) (hdepth : template.depth ≤ Json.Tree.maxDepth) :
    Yields rt.serve ⟨true, calls + 1⟩ (checkState s rt.liveId e)
      (.ok (compareState s rt.liveId e (instantiate rt.liveId template))) ⟨true, calls + 1⟩ := by
  have hurl : (Request.get (s.instanceUrl rt.liveId)).url.toList
      = rt.root ++ '/' :: (rt.liveId.toList ++ ['/']) := by
    simp [instanceUrl, Request.get, String.toList_append, h.route]
  have hread : Response.json ⟨200, (instantiate rt.liveId template).wire⟩ (s.instanceUrl rt.liveId)
      = .ok (instantiate rt.liveId template) := by
    unfold Response.json
    rw [Json.read?_wire (Template.wellFormed_instantiate hwell) (Template.depth_instantiate hdepth)]
  refine (yields_accepted (order_ne_nil _ _ _) (fun token => h.isOpen.serve_state
    (r := (Request.get (s.instanceUrl rt.liveId)).withBearer token) rfl hurl rfl htemplate) rfl).bind ?_
  simp only [hread]
  exact Yields.pure _ _

/-! ## Entries -/

/-- The visit of an entry whose call was accepted, by what the state after it is. -/
def visited (s : Setup) (live : String) (e : Entry) (template : Json) : Entry × Visit :=
  (e, .accepted (.active live) (compareState s live e (instantiate live template)))

theorem yields_construction (h : s.HostedBy rt) (hkind : kindAt index e = .constructor)
    (htemplate : rt.states[0]? = some template) (hstate : IsTemplate rt.liveId template) :
    Yields rt.serve Runtime.initial (visit s .awaitingConstruction index e)
      (.ok (visited s rt.liveId e template).2) ⟨true, 1⟩ := by
  rw [visit_awaiting hkind]
  refine (h.yields_construct _).bind ?_
  exact (h.yields_checkState htemplate hstate.wellFormed hstate.depth).bind (Yields.pure _ _)

theorem yields_call (h : s.HostedBy rt) (hkind : kindAt index e ≠ .constructor)
    (hname : e.action.name ≠ "") (htemplate : rt.states[calls]? = some template)
    (hstate : IsTemplate rt.liveId template) :
    Yields rt.serve ⟨true, calls⟩ (visit s (.active rt.liveId) index e)
      (.ok (visited s rt.liveId e template).2) ⟨true, calls + 1⟩ := by
  rw [visit_active hkind]
  refine (h.yields_invoke hname).bind ?_
  exact (h.yields_checkState htemplate hstate.wellFormed hstate.depth).bind (Yields.pure _ _)

end Setup.HostedBy

/-- A step that calls an action of the instance. -/
def IsCall (step : AuditTrail.Step) : Prop :=
  (step.kind = some .permission ∨ step.kind = some .obligation) ∧ step.name ≠ ""

theorem IsCall.kindAt_ne {id : String} {step : AuditTrail.Step} {e : Entry} (h : IsCall step)
    (hrecords : Records id step e) (index : Nat) : kindAt index e ≠ .constructor := by
  unfold kindAt
  rw [hrecords.action]
  rcases h.1 with hkind | hkind <;> simp [hkind]

namespace Setup.HostedBy

variable {rt : Runtime} {s : Setup}

/-- The visits of entries that record steps. -/
def visitedAll (s : Setup) (live : String) (steps : List AuditTrail.Step) (entries : List Entry) :
    List (Entry × Visit) := steps.zipWith (fun step e => visited s live e step.state) entries

/-- **A replay goes along with the runtime.** Each call moves the runtime on to the next state, and this is
the state that is compared. -/
theorem yields_calls (h : s.HostedBy rt) {id : String} {steps : List AuditTrail.Step} {entries : List Entry}
    (hrecords : List.Forall₂ (Records id) steps entries) (hcalls : ∀ step ∈ steps, IsCall step)
    (hstates : ∀ step ∈ steps, IsTemplate rt.liveId step.state) {calls index : Nat}
    (hserved : rt.states.drop calls = steps.map AuditTrail.Step.state) :
    Yields rt.serve ⟨true, calls⟩ (visitAll s (.active rt.liveId) index entries)
      (.ok (visitedAll s rt.liveId steps entries)) ⟨true, calls + steps.length⟩ := by
  induction hrecords generalizing calls index with
  | nil => exact Yields.pure _ _
  | @cons step e steps entries hrecord hrecords ih =>
    obtain ⟨hcall, hcalls⟩ := List.forall_mem_cons.mp hcalls
    obtain ⟨hstate, hstates⟩ := List.forall_mem_cons.mp hstates
    have hnext : rt.states[calls]? = some step.state := by
      have hhead := congrArg (fun states => states[0]?) hserved
      simpa [List.getElem?_drop] using hhead
    have hserved' : rt.states.drop (calls + 1) = steps.map AuditTrail.Step.state := by
      rw [← List.tail_drop, hserved, List.map_cons, List.tail_cons]
    have hname : e.action.name ≠ "" := by
      rw [hrecord.action]
      exact hcall.2
    -- After this call the runtime is one state further, and so is what is left of the log.
    rw [visitAll, List.length_cons, Nat.add_comm steps.length, ← Nat.add_assoc]
    refine (h.yields_call (hcall.kindAt_ne hrecord index) hname hnext hstate).bind ?_
    exact (ih hcalls hstates hserved').bind (Yields.pure _ _)

theorem yields_visitAll (h : s.HostedBy rt) {id : String} {first : AuditTrail.Step}
    {calls : List AuditTrail.Step} {e : Entry} {rest : List Entry}
    (hrecords : List.Forall₂ (Records id) (first :: calls) (e :: rest))
    (hkind : first.kind = some .constructor) (hcalls : ∀ step ∈ calls, IsCall step)
    (hserved : rt.states = (first :: calls).map AuditTrail.Step.state)
    (hstates : ∀ step ∈ first :: calls, IsTemplate rt.liveId step.state) :
    Yields rt.serve Runtime.initial (visitAll s .awaitingConstruction 0 (e :: rest))
      (.ok (visitedAll s rt.liveId (first :: calls) (e :: rest))) ⟨true, 1 + calls.length⟩ := by
  cases hrecords with
  | cons hrecord hrecords =>
    obtain ⟨hstate, hstates⟩ := List.forall_mem_cons.mp hstates
    have hkindAt : kindAt 0 e = .constructor := by
      rw [kindAt, hrecord.action, hkind]
      rfl
    have hnext : rt.states[0]? = some first.state := by rw [hserved]; rfl
    have hserved' : rt.states.drop 1 = calls.map AuditTrail.Step.state := by rw [hserved]; rfl
    rw [visitAll]
    refine (h.yields_construction hkindAt hnext hstate).bind ?_
    exact (h.yields_calls hrecords hcalls hstates hserved').bind (Yields.pure _ _)

end Setup.HostedBy

/-! ## Faithful runtimes -/

/-- A runtime serves the states of a log at the base and on the route where the replay of the log goes,
and lets everybody call everything. -/
structure FaithfulRuntime (identity : Identity) (state : Json) (calls : List AuditTrail.Step)
    (baseUrl : String) (rt : Runtime) : Prop where
  route : ∃ parsed, Identity.parse ({ identity with index := some 0 }).display = .ok parsed
    ∧ rt.route = parsed.route
  base : Text.trimEnd (· == '/') rt.baseUrl.toList = Text.trimEnd (· == '/') baseUrl.toList
  isOpen : rt.IsOpen
  callable : ∀ call ∈ calls, IsCall call
  states : rt.states = state :: calls.map AuditTrail.Step.state
  templates : ∀ template ∈ rt.states, IsTemplate rt.liveId template
  liveId : rt.liveId ≠ "" ∧ '/' ∉ rt.liveId.toList

/-- The last of the templates. -/
def finalTemplate (state : Json) (calls : List AuditTrail.Step) : Json :=
  (state :: calls.map AuditTrail.Step.state).getLast (List.cons_ne_nil _ _)

/-- The comparison of the state after a step finds it equal if the projection leaves its hash as it is. -/
theorem compareState_visited {s : Setup} {live id : String} {step : AuditTrail.Step} {e : Entry}
    (hid : s.identity.protocolId.display = id) (hslash : '/' ∉ live.toList)
    (htemplate : IsTemplate live step.state) (hrecord : Records id step e) :
    compareState s live e (instantiate live step.state) = .ok ()
      ↔ canonicalHash (projected s.finalState (instantiate id step.state))
        = canonicalHash (instantiate id step.state) := by
  obtain ⟨members, hmembers, haddressed⟩ := htemplate.members
  rw [compareState_eq_ok, comparable, hid, hrecord.stateHash, hmembers,
    withAuditedId_instantiate hslash haddressed]

theorem error_visited {s : Setup} {live : String} {e : Entry} {template : Json} :
    (Setup.HostedBy.visited s live e template).2.error = none
      ↔ compareState s live e (instantiate live template) = .ok () := by
  unfold Setup.HostedBy.visited Visit.accepted
  cases compareState s live e (instantiate live template) <;> simp

/-- No visit has an error exactly if the projection leaves the hashes of all states as they are. -/
theorem error_visitedAll {s : Setup} {live id : String} {steps : List AuditTrail.Step}
    {entries : List Entry} (hrecords : List.Forall₂ (Records id) steps entries)
    (hid : s.identity.protocolId.display = id) (hslash : '/' ∉ live.toList)
    (hstates : ∀ step ∈ steps, IsTemplate live step.state) :
    (∀ v ∈ Setup.HostedBy.visitedAll s live steps entries, v.2.error = none)
      ↔ ∀ step ∈ steps, canonicalHash (projected s.finalState (instantiate id step.state))
        = canonicalHash (instantiate id step.state) := by
  unfold Setup.HostedBy.visitedAll
  induction hrecords with
  | nil => simp
  | cons hrecord hrecords ih =>
    obtain ⟨hstate, hstates⟩ := List.forall_mem_cons.mp hstates
    rw [List.zipWith_cons_cons, List.forall_mem_cons, List.forall_mem_cons, ih hstates, error_visited,
      compareState_visited hid hslash hstate hrecord]

theorem countP_visitedAll {s : Setup} {live id : String} {steps : List AuditTrail.Step}
    {entries : List Entry} (hrecords : List.Forall₂ (Records id) steps entries) :
    (Setup.HostedBy.visitedAll s live steps entries).countP (fun v => v.2.replayed) = steps.length := by
  unfold Setup.HostedBy.visitedAll
  induction hrecords with
  | nil => rfl
  | cons hrecord hrecords ih =>
    rw [List.zipWith_cons_cons, List.countP_cons_of_pos (by rfl), ih, List.length_cons]

/-- **What a replay on a faithful runtime reports.** Every entry is replayed, and there is an error unless
the projection leaves the hashes of all states as they are. -/
theorem report_faithful (scheme : Scheme) (signer : Signer) {identity : Identity}
    (parameters : Json) {state : Json} {calls : List AuditTrail.Step} {baseUrl : String} {rt : Runtime}
    (h : FaithfulRuntime identity state calls baseUrl rt) (tokens : PartyTokens) (hints : PartyHints) :
    ∃ report, ((replayWith baseUrl (Draft.issued scheme signer identity parameters state calls)
        tokens hints).against rt.serve Runtime.initial).1 = .ok report
      ∧ report.entriesReplayed
        = (Draft.issued scheme signer identity parameters state calls).entries.length
      ∧ (report.success = true ↔ report.errors = [])
      ∧ (report.errors = [] ↔ ∀ template ∈ rt.states,
        canonicalHash (projected (instantiate identity.protocolId.display (finalTemplate state calls))
            (instantiate identity.protocolId.display template))
          = canonicalHash (instantiate identity.protocolId.display template)) := by
  obtain ⟨parsed, hparsed, hroute⟩ := h.route
  obtain ⟨first, rest, hentries, hfirst, hrecords⟩ :=
    Draft.entries_issued scheme signer identity parameters state calls
  have hid : parsed.protocolId = identity.protocolId := Identity.protocolId_of_parse hparsed
  have hfinal := Draft.state_issued scheme signer identity parameters state calls
  generalize Draft.issued scheme signer identity parameters state calls = log at hentries hfinal
  rw [← hfirst] at hparsed
  have hsetup := setup_eq baseUrl hentries hparsed tokens hints
  generalize hs : Setup.mk parsed _ tokens hints log.state (logParties log) = s at hsetup
  have hhosted : s.HostedBy rt := by
    refine ⟨h.isOpen, ?_⟩
    rw [← hs, String.toList_append, String.toList_ofList, ← h.base, ← hroute]
    rfl
  have hdisplay : s.identity.protocolId.display = identity.protocolId.display := by rw [← hs, hid]
  have hstate : s.finalState = instantiate identity.protocolId.display (finalTemplate state calls) := by
    rw [← hs]
    exact hfinal
  -- The construction is a step like the others, but for its kind.
  generalize hsteps : (Draft.start signer identity).construction parameters state = construction
    at hrecords
  have hserved : rt.states = (construction :: calls).map AuditTrail.Step.state := by
    rw [h.states, ← hsteps]
    rfl
  have htemplates : ∀ step ∈ construction :: calls, IsTemplate rt.liveId step.state := fun step hstep =>
    h.templates _ (hserved ▸ List.mem_map_of_mem hstep)
  have hrun := hhosted.yields_visitAll hrecords (by rw [← hsteps]; rfl) h.callable hserved htemplates
  refine ⟨report (Setup.HostedBy.visitedAll s rt.liveId (construction :: calls) (first :: rest)), ?_, ?_,
    List.isEmpty_iff, ?_⟩
  · unfold replayWith
    rw [hsetup, hentries]
    exact (Yields.bind (f := fun outcome => pure (outcome.map report)) hrun (Yields.pure _ _)).1
  · rw [hentries, ← hrecords.length_eq]
    exact countP_visitedAll hrecords
  · rw [hserved, List.forall_mem_map]
    refine messagesFrom_eq_nil.trans ?_
    rw [error_visitedAll hrecords hdisplay h.liveId.2 htemplates, hstate]

/-! ## What the projection takes away -/

/-- Every top-level name of a template is a name of the final one, or the final one has no names. -/
def Covers (final template : Json) : Prop :=
  ∃ names members, final = .object names ∧ template = .object members ∧ Keeps names members

section

variable {id live : String} {final template : Json}

theorem keeps_instantiate {names members : List (String × Json)} :
    Keeps (names.map fun m => (m.1, instantiate id m.2)) (members.map fun m => (m.1, instantiate id m.2))
      ↔ Keeps names members := by
  unfold Keeps ByName.names
  rw [List.map_eq_nil_iff, List.map_map, List.forall_mem_map]
  rfl

/-- A template that is covered comes out of the projection as it was. -/
theorem Covers.projected_eq (h : Covers final template) :
    projected (instantiate id final) (instantiate id template) = instantiate id template := by
  obtain ⟨names, members, rfl, rfl, hkeeps⟩ := h
  rw [Template.instantiate_object, Template.instantiate_object]
  exact projected_of_keeps (keeps_instantiate.mpr hkeeps)

/-- A template that comes out of the projection with the same hash is covered, or two texts collide. -/
theorem covers_or_collision (hfinal : IsTemplate live final) (htemplate : IsTemplate live template)
    (h : canonicalHash (projected (instantiate id final) (instantiate id template))
      = canonicalHash (instantiate id template)) :
    Covers final template ∨ Collision
      [(projected (instantiate id final) (instantiate id template)).canonical,
        (instantiate id template).canonical] := by
  obtain ⟨names, hnames, _⟩ := hfinal.members
  obtain ⟨members, hmembers, _⟩ := htemplate.members
  have hwell : (instantiate id template).WellFormed := Template.wellFormed_instantiate htemplate.wellFormed
  refine (canonicalHash_eq (wellFormed_projected hwell) hwell List.mem_cons_self
    (List.mem_cons_of_mem _ List.mem_cons_self) h).imp_left ?_
  intro hsame
  rw [hnames, hmembers, Template.instantiate_object, Template.instantiate_object] at hsame
  exact ⟨names, members, hnames, hmembers, keeps_instantiate.mp (sameUpToNumbers_projected.mp hsame)⟩

end

/-! ## A debt -/

/-- The state of a debt of which something is due. -/
def openDebt (due : Nat) : Json :=
  .object [("@actions", .object [("pay", .string ("/" ++ Template.placeholder ++ "/pay"))]),
    ("@id", .string Template.placeholder), ("due", .ofNat due)]

/-- The state of a debt that was settled: there is nothing to call, and nothing due. -/
def settledDebt : Json := .object [("@id", .string Template.placeholder)]

theorem isTemplate_openDebt (due : Nat) (h : due ≤ 1000) :
    IsTemplate "live-1" (openDebt due) where
  members := by
    refine ⟨_, rfl, List.forall_mem_cons.mpr ⟨.actions _ ?_,
      List.forall_mem_cons.mpr ⟨.id _ (Or.inl rfl), ?_⟩⟩⟩
    · refine List.forall_mem_singleton.mpr (.segments _ ?_)
      unfold IsSegment
      decide +kernel
    · exact List.forall_mem_singleton.mpr
        (.other _ _ (fun _ => rfl) (fun _ => rfl) fun s hs => absurd hs List.not_mem_nil)
  wellFormed := by
    refine Json.wellFormed_object.mpr ⟨?_, ?_⟩
    · have hnames : ["@actions", "@id", "due"].Pairwise (· < ·) := by decide +kernel
      exact List.pairwise_map.mp hnames
    · refine List.forall_mem_cons.mpr ⟨?_, List.forall_mem_cons.mpr
        ⟨trivial, List.forall_mem_singleton.mpr ?_⟩⟩
      · exact ⟨List.pairwise_singleton _ _, trivial, trivial⟩
      · exact decide_eq_true (by omega)
  depth := Nat.le_of_ble_eq_true rfl

theorem isTemplate_settledDebt : IsTemplate "live-1" settledDebt where
  members := ⟨_, rfl, List.forall_mem_singleton.mpr (.id _ (Or.inl rfl))⟩
  wellFormed := ⟨List.pairwise_singleton _ _, trivial, trivial⟩
  depth := Nat.le_of_ble_eq_true rfl

theorem covers_openDebt (due due' : Nat) : Covers (openDebt due) (openDebt due') :=
  ⟨_, _, rfl, rfl, Or.inr (by simp [ByName.names])⟩

/-- An action of a debt, with the state after it. -/
def debtStep (name : String) (state : Json) : AuditTrail.Step :=
  ⟨some .permission, name, .object [], state⟩

/-- A runtime of a debt that lets everybody call everything. -/
def debtRuntime (states : List Json) : Runtime :=
  ⟨"http://localhost:12000", Draft.exampleIdentity.route, "live-1", states, [], [], none, []⟩

theorem faithful_debtRuntime (name : String) {first last : Json} (hname : name ≠ "")
    (hfirst : IsTemplate "live-1" first) (hlast : IsTemplate "live-1" last) :
    FaithfulRuntime Draft.exampleIdentity first [debtStep name last] "http://localhost:12000"
      (debtRuntime [first, last]) where
  route := ⟨_, rfl, rfl⟩
  base := rfl
  isOpen := ⟨rfl, rfl, fun _ h => absurd h (by simp [debtRuntime])⟩
  callable := List.forall_mem_singleton.mpr ⟨Or.inl rfl, hname⟩
  states := rfl
  templates := List.forall_mem_cons.mpr ⟨hfirst, List.forall_mem_singleton.mpr hlast⟩
  liveId := ⟨by simp [debtRuntime], by simp [debtRuntime]⟩

/-- The projection to the names of a settled debt leaves the id of an open one. -/
theorem projected_openDebt {id : String} (due : Nat) :
    projected (instantiate id settledDebt) (instantiate id (openDebt due)) = instantiate id settledDebt := by
  unfold settledDebt openDebt
  rw [Template.instantiate_object, Template.instantiate_object, projected_object (by simp)]
  simp [ByName.has]

/-- The two states of a debt have different hashes. -/
theorem canonicalHash_settledDebt :
    canonicalHash (instantiate Draft.exampleIdentity.protocolId.display settledDebt)
      ≠ canonicalHash (instantiate Draft.exampleIdentity.protocolId.display (openDebt 100)) := by
  have hsettled : (instantiate Draft.exampleIdentity.protocolId.display settledDebt).canonicalTree.chars
      = "\x7b\"@id\":\"3fa85f64-5717-4562-b3fc-2c963f66afa6\"\x7d".toList := by
    unfold settledDebt
    rw [Template.instantiate_object, Json.canonicalTree_object_of_sorted (by decide +kernel)]
    decide +kernel
  have hopen : (instantiate Draft.exampleIdentity.protocolId.display (openDebt 100)).canonicalTree.chars
      = ("\x7b\"@actions\":\x7b\"pay\":\"/3fa85f64-5717-4562-b3fc-2c963f66afa6/pay\"\x7d,"
        ++ "\"@id\":\"3fa85f64-5717-4562-b3fc-2c963f66afa6\",\"due\":100\x7d").toList := by
    unfold openDebt
    rw [Template.instantiate_object, Json.canonicalTree_object_of_sorted (by decide +kernel)]
    decide +kernel
  intro h
  have hdigests := textHash_injective h
  rw [Json.canonical, Json.canonical, hsettled, hopen] at hdigests
  exact absurd hdigests (by decide +kernel)

/-! ## What a faithful runtime gets -/

/-- **A faithful runtime is accepted as far as the final state has the names of all states.** The replay
of a log on a faithful runtime goes through all entries. It succeeds if no state has a top-level name
that the final state lacks, or the final state has no names; and only then, unless two texts collide. -/
theorem faithful_runtime_replayed (scheme : Scheme) (signer : Signer) {identity : Identity}
    (parameters : Json) {state : Json} {calls : List AuditTrail.Step} {baseUrl : String} {rt : Runtime}
    (h : FaithfulRuntime identity state calls baseUrl rt) (tokens : PartyTokens) (hints : PartyHints) :
    ∃ report, ((replayWith baseUrl (Draft.issued scheme signer identity parameters state calls)
        tokens hints).against rt.serve Runtime.initial).1 = .ok report
      ∧ report.entriesReplayed
        = (Draft.issued scheme signer identity parameters state calls).entries.length
      ∧ ((∀ template ∈ rt.states, Covers (finalTemplate state calls) template) → report.success = true)
      ∧ (report.success = true → ∀ template ∈ rt.states, Covers (finalTemplate state calls) template
        ∨ Collision [(projected (instantiate identity.protocolId.display (finalTemplate state calls))
            (instantiate identity.protocolId.display template)).canonical,
          (instantiate identity.protocolId.display template).canonical]) := by
  obtain ⟨report, hrun, hreplayed, hsuccess, herrors⟩ :=
    report_faithful scheme signer parameters h tokens hints
  refine ⟨report, hrun, hreplayed, ?_, ?_⟩
  all_goals rw [hsuccess, herrors]
  · intro hcovers template hmem
    rw [(hcovers template hmem).projected_eq]
  · intro hhashes template hmem
    have hfinal : finalTemplate state calls ∈ rt.states := by
      rw [h.states]
      exact List.getLast_mem _
    exact covers_or_collision (h.templates _ hfinal) (h.templates template hmem)
      (hhashes template hmem)

/-- A payment that leaves something due is replayed with success. -/
theorem faithful_runtime_paid :
    FaithfulRuntime Draft.exampleIdentity (openDebt 100) [debtStep "pay" (openDebt 60)]
        "http://localhost:12000" (debtRuntime [openDebt 100, openDebt 60])
      ∧ ∃ report, ((replayWith "http://localhost:12000" (Draft.issued openScheme .issuer
          Draft.exampleIdentity (.object []) (openDebt 100) [debtStep "pay" (openDebt 60)])
          ⟨[], none⟩ .none).against (debtRuntime [openDebt 100, openDebt 60]).serve
          Runtime.initial).1 = .ok report ∧ report.success = true ∧ report.entriesReplayed = 2 := by
  have hfaithful := faithful_debtRuntime "pay" (by decide) (isTemplate_openDebt 100 (by decide))
    (isTemplate_openDebt 60 (by decide))
  obtain ⟨report, hrun, hreplayed, hsuccess, _⟩ := faithful_runtime_replayed openScheme .issuer
    (.object []) hfaithful ⟨[], none⟩ .none
  refine ⟨hfaithful, report, hrun, hsuccess ?_, hreplayed⟩
  exact List.forall_mem_cons.mpr
    ⟨covers_openDebt _ _, List.forall_mem_singleton.mpr (covers_openDebt _ _)⟩

/-- A settled debt has fewer names than an open one. A runtime that serves the states of both faithfully
is not accepted: what the projection leaves of the open state has the hash of the settled one. -/
theorem faithful_runtime_settled :
    FaithfulRuntime Draft.exampleIdentity (openDebt 100) [debtStep "settle" settledDebt]
        "http://localhost:12000" (debtRuntime [openDebt 100, settledDebt])
      ∧ ∃ report, ((replayWith "http://localhost:12000" (Draft.issued openScheme .issuer
          Draft.exampleIdentity (.object []) (openDebt 100) [debtStep "settle" settledDebt])
          ⟨[], none⟩ .none).against (debtRuntime [openDebt 100, settledDebt]).serve
          Runtime.initial).1 = .ok report ∧ report.success = false := by
  have hfaithful := faithful_debtRuntime "settle" (by decide) (isTemplate_openDebt 100 (by decide))
    isTemplate_settledDebt
  obtain ⟨report, hrun, _, hsuccess, herrors⟩ := report_faithful openScheme .issuer
    (.object []) hfaithful ⟨[], none⟩ .none
  refine ⟨hfaithful, report, hrun, ?_⟩
  rw [Bool.eq_false_iff, ne_eq, hsuccess, herrors]
  intro h
  have hhash := h _ List.mem_cons_self
  rw [show finalTemplate (openDebt 100) [debtStep "settle" settledDebt] = settledDebt from rfl,
    projected_openDebt] at hhash
  exact canonicalHash_settledDebt hhash

end AuditTrail.Replay
