import AuditTrail.Proofs.Failure
import AuditTrail.Proofs.Replay.Call
import Mathlib.Data.List.Chain

/-!
# What a replay does

A replay is a run of a machine with three phases. What it can do with one entry is said once, one
case for each way to go on (`VisitTrace`), and everything about a whole replay is read off these
cases: which requests are sent, which phase comes next, when an error is reported. The runtime is not
trusted: nothing is assumed of its replies but that it does not cancel the replay.

The phases only move forward, so the invariant of a run is its phase. Before the construction a run
may still construct, after it never (`constructs_le`).
-/

namespace AuditTrail.Replay

open Http (Exchange Request Response Reply)
open Http.Exchange (Generates generates_bind generates_pure)

/-! ## What may happen with one entry -/

/-- The kind that an entry is replayed as. -/
def kindAt (index : Nat) (e : Entry) : ActionKind := e.action.kind.getD (.inferred index)

/-- Whether an entry of a kind has nothing to be called in a phase. -/
def Phase.idles : Phase → ActionKind → Bool
  | .awaitingConstruction, kind => kind != .constructor
  | .active _, kind => kind == .constructor
  | .failed, _ => true

/-- How the phase may move: from awaiting an instance to having one or to having failed, and from
there nowhere. -/
inductive Phase.Moves : Phase → Phase → Prop
  | stays (phase : Phase) : Moves phase phase
  | constructs (liveId : String) : Moves .awaitingConstruction (.active liveId)
  | fails : Moves .awaitingConstruction .failed

/-- Whether a response says what an entry of a kind needs: a construction must yield an id. -/
def Setup.accepts (s : Setup) (kind : ActionKind) (response : Response) : Bool :=
  kind != .constructor || (response.record s.constructorUrl liveIdOfTree?).isOk

/-- The visit of an entry in a phase, with the requests sent for it and their replies. -/
inductive VisitTrace (s : Setup) (index : Nat) (e : Entry) :
    Phase → Visit → List (Request × Reply) → Prop
  /-- The instance is constructed, and its state fetched. -/
  | constructed {response : Response} {liveId : String} {fetched : CallResult}
      {posts gets : List (Request × Reply)} (outcome : Except String Unit)
      (hkind : kindAt index e = .constructor)
      (hcall : CallTrace (s.construction e.action) (.ok response) posts)
      (hid : response.record s.constructorUrl liveIdOfTree? = .ok liveId)
      (hfetch : CallTrace (Request.get (s.instanceUrl liveId)) fetched gets) (hgets : gets ≠ []) :
      VisitTrace s index e .awaitingConstruction (.accepted (.active liveId) outcome) (posts ++ gets)
  /-- The instance is not constructed, or no id can be read. -/
  | notConstructed {called : CallResult} {posts : List (Request × Reply)} (message : String)
      (hkind : kindAt index e = .constructor)
      (hcall : CallTrace (s.construction e.action) called posts)
      (hid : resultAs (s.accepts .constructor) called = false) :
      VisitTrace s index e .awaitingConstruction ⟨.failed, false, some message⟩ posts
  /-- The action is called, and the state of the instance fetched. -/
  | invoked {response : Response} {liveId : String} {fetched : CallResult}
      {posts gets : List (Request × Reply)} (outcome : Except String Unit)
      (hkind : kindAt index e ≠ .constructor)
      (hcall : CallTrace (s.invocation liveId e.action) (.ok response) posts)
      (hfetch : CallTrace (Request.get (s.instanceUrl liveId)) fetched gets) (hgets : gets ≠ []) :
      VisitTrace s index e (.active liveId) (.accepted (.active liveId) outcome) (posts ++ gets)
  /-- The action is not accepted. -/
  | notInvoked {liveId : String} {posts : List (Request × Reply)} (reason message : String)
      (hkind : kindAt index e ≠ .constructor)
      (hcall : CallTrace (s.invocation liveId e.action) (.error reason) posts) :
      VisitTrace s index e (.active liveId) ⟨.active liveId, false, some message⟩ posts
  /-- Nothing is called. -/
  | idle (phase : Phase) (message : String) (hidle : phase.idles (kindAt index e) = true) :
      VisitTrace s index e phase ⟨phase, false, some message⟩ []

/-! ## The shape of a visit -/

/-- The live id of what a call constructed, or what went wrong. -/
def Setup.constructed (s : Setup) : CallResult → Except String String
  | .error message => .error ("constructor failed: " ++ message)
  | .ok response => (response.record s.constructorUrl liveIdOfTree?).mapError fun _ =>
    "constructor response has no @id"

/-- What went wrong with the call of an action, if anything did. -/
def invoked : CallResult → Except String Unit
  | .error message => .error ("action failed: " ++ message)
  | .ok _ => .ok ()

/-- How the state that a call fetched compares with what an entry records. -/
def Setup.compared (s : Setup) (liveId : String) (e : Entry) : CallResult → Except String Unit
  | .error message => .error ("failed to fetch state: " ++ message)
  | .ok response =>
    match response.json (s.instanceUrl liveId) with
    | .ok state => compareState s liveId e state
    | .error f => .error ("failed to read state: " ++ f.message)

/-- The end of a visit whose call was accepted: the state of the instance is compared. -/
def compareAfter (s : Setup) (liveId : String) (e : Entry) : Exchange (Except Failure Visit) := do
  let outcome ← checkState s liveId e
  pure (outcome.map (Visit.accepted (.active liveId)))

/-- A visit that calls something: what is compared after it if the call was accepted, and in which phase it
ends if it was not. -/
def callThenCompare {α : Type} (s : Setup) (e : Entry) (call : Exchange (Except Failure (Except String α)))
    (rejected : Phase) (liveId : α → String) : Exchange (Except Failure Visit) := do
  match ← call with
  | .error f => pure (.error f)
  | .ok (.error message) => pure (.ok ⟨rejected, false, some message⟩)
  | .ok (.ok a) => compareAfter s (liveId a) e

section

variable {s : Setup} {index : Nat} {e : Entry} {liveId : String} {sent : List (Request × Reply)}

theorem construct_eq (s : Setup) (action : Action) : construct s action = (do
    let called ← callWith (s.construction action)
      (s.attempts (s.hints.forConstructor? s.identity.protocolName))
    pure (called.map s.constructed)) := by
  unfold construct
  dsimp only
  congr 1
  funext called
  match called with
  | .error f => rfl
  | .ok (.error message) => rfl
  | .ok (.ok response) =>
    simp only [Except.map, Setup.constructed]
    cases response.record s.constructorUrl liveIdOfTree? <;> rfl

theorem invoke_eq (s : Setup) (liveId : String) (action : Action) : invoke s liveId action = (do
    let called ← callWith (s.invocation liveId action) (s.attempts (s.hints.forAction? action.name))
    pure (called.map invoked)) := by
  unfold invoke
  dsimp only
  congr 1
  funext called
  match called with
  | .error f => rfl
  | .ok (.error message) => rfl
  | .ok (.ok response) => rfl

theorem checkState_eq (s : Setup) (liveId : String) (e : Entry) : checkState s liveId e = (do
    let called ← callWith (Request.get (s.instanceUrl liveId)) (s.attempts none)
    pure (called.map (s.compared liveId e))) := by
  unfold checkState
  dsimp only
  congr 1
  funext called
  match called with
  | .error f => rfl
  | .ok (.error message) => rfl
  | .ok (.ok response) =>
    simp only [Except.map, Setup.compared]
    cases response.json (s.instanceUrl liveId) <;> rfl

theorem Setup.constructed_eq_ok {called : CallResult} : s.constructed called = .ok liveId
    ↔ ∃ response, called = .ok response ∧ response.record s.constructorUrl liveIdOfTree? = .ok liveId := by
  cases called with
  | error message => simp [Setup.constructed]
  | ok response =>
    simp only [Setup.constructed, Except.ok.injEq, exists_eq_left']
    cases response.record s.constructorUrl liveIdOfTree? <;> simp [Except.mapError]

theorem visit_awaiting (hkind : kindAt index e = .constructor) :
    visit s .awaitingConstruction index e
      = callThenCompare s e (construct s e.action) .failed fun liveId => liveId := by
  unfold kindAt at hkind
  unfold visit callThenCompare
  rw [hkind]
  dsimp only
  congr 1
  funext called
  match called with
  | .error f => rfl
  | .ok (.error message) => rfl
  | .ok (.ok liveId) => rfl

/-- Permissions and obligations are called alike. -/
theorem visit_active (hkind : kindAt index e ≠ .constructor) :
    visit s (.active liveId) index e
      = callThenCompare s e (invoke s liveId e.action) (.active liveId) fun _ => liveId := by
  unfold kindAt at hkind
  unfold visit callThenCompare
  -- Both kinds lead to the same branch, so the match is decided by the kind before anything runs.
  generalize e.action.kind.getD (.inferred index) = kind at hkind
  cases kind with
  | constructor => exact absurd rfl hkind
  | permission | obligation =>
    dsimp only
    congr 1
    funext called
    match called with
    | .error f => rfl
    | .ok (.error message) => rfl
    | .ok (.ok ()) => rfl

/-- In a phase with nothing to call, an entry gets an error and nothing else happens. -/
theorem visit_idle {phase : Phase} (hidle : phase.idles (kindAt index e) = true) :
    ∃ message, ∀ s, visit s phase index e = pure (.ok ⟨phase, false, some message⟩) := by
  unfold kindAt at hidle
  unfold visit
  generalize e.action.kind.getD (.inferred index) = kind at hidle
  cases phase with
  | failed => exact ⟨_, fun _ => rfl⟩
  | awaitingConstruction =>
    cases kind with
    | constructor => simp [Phase.idles] at hidle
    | permission => exact ⟨_, fun _ => rfl⟩
    | obligation => exact ⟨_, fun _ => rfl⟩
  | active liveId =>
    cases kind with
    | constructor => exact ⟨_, fun _ => rfl⟩
    | permission => simp [Phase.idles] at hidle
    | obligation => simp [Phase.idles] at hidle

/-- An entry leaves a replay as it is, or it constructs the instance, or it calls it. Which of these depends
on the phase and the kind only. -/
theorem visit_cases (phase : Phase) (index : Nat) (e : Entry) :
    (∃ message, ∀ s, visit s phase index e = pure (.ok ⟨phase, false, some message⟩))
      ∨ (phase = .awaitingConstruction ∧ ∀ s, visit s phase index e
        = callThenCompare s e (construct s e.action) .failed fun liveId => liveId)
      ∨ ∃ liveId, phase = .active liveId ∧ ∀ s, visit s phase index e
        = callThenCompare s e (invoke s liveId e.action) (.active liveId) fun _ => liveId := by
  cases hidle : phase.idles (kindAt index e) with
  | true => exact Or.inl (visit_idle hidle)
  | false =>
    cases phase with
    | failed => exact absurd hidle (by simp [Phase.idles])
    | awaitingConstruction =>
      exact Or.inr (Or.inl ⟨rfl, fun s => visit_awaiting (by simpa [Phase.idles] using hidle)⟩)
    | active liveId =>
      exact Or.inr (Or.inr ⟨liveId, rfl, fun s => visit_active (by simpa [Phase.idles] using hidle)⟩)

/-! ## What the calls make of a replay -/

/-- A property of programs that calls have and that programs made of calls keep: such a program ends with a
result, or it goes on after another one, whose failure it passes on as it is. -/
structure Compositional (P : {α : Type} → Exchange (Except Failure α) → Prop) : Prop where
  call : ∀ request attempts, P (callWith request attempts)
  result : ∀ {α : Type} (a : α), P (pure (.ok a) : Exchange (Except Failure α))
  bind : ∀ {α β : Type} {x : Exchange (Except Failure α)}
    {next : Except Failure α → Exchange (Except Failure β)}, P x →
      (∀ f, next (.error f) = pure (.error f)) → (∀ a, P (next (.ok a))) → P (x >>= next)

namespace Compositional

variable {P : {α : Type} → Exchange (Except Failure α) → Prop} {α β : Type}

/-- Making something else of a result changes nothing. -/
theorem map (h : Compositional P) {x : Exchange (Except Failure α)} (hx : P x) (g : α → β) :
    P (do
      let outcome ← x
      pure (outcome.map g)) :=
  h.bind hx (fun _ => rfl) fun a => h.result (g a)

theorem construct (h : Compositional P) (s : Setup) (action : Action) : P (Replay.construct s action) := by
  rw [construct_eq]
  exact h.map (h.call _ _) _

theorem invoke (h : Compositional P) (s : Setup) (liveId : String) (action : Action) :
    P (Replay.invoke s liveId action) := by
  rw [invoke_eq]
  exact h.map (h.call _ _) _

theorem compareAfter (h : Compositional P) (s : Setup) (liveId : String) (e : Entry) :
    P (Replay.compareAfter s liveId e) := by
  rw [Replay.compareAfter, checkState_eq]
  exact h.map (h.map (h.call _ _) _) _

theorem callThenCompare (h : Compositional P) (s : Setup) (e : Entry)
    {call : Exchange (Except Failure (Except String α))} (hcall : P call) (rejected : Phase)
    (liveId : α → String) : P (Replay.callThenCompare s e call rejected liveId) := by
  refine h.bind hcall (fun _ => rfl) fun called => ?_
  cases called with
  | error message => exact h.result _
  | ok a => exact h.compareAfter s (liveId a) e

theorem visit (h : Compositional P) (s : Setup) (phase : Phase) (index : Nat) (e : Entry) :
    P (Replay.visit s phase index e) := by
  rcases visit_cases phase index e with ⟨message, hvisit⟩ | ⟨_, hvisit⟩ | ⟨liveId, _, hvisit⟩
  all_goals rw [hvisit]
  · exact h.result _
  · exact h.callThenCompare s e (h.construct s e.action) _ _
  · exact h.callThenCompare s e (h.invoke s liveId e.action) _ _

/-- **What calls have, the visits of all entries have.** -/
theorem visitAll (h : Compositional P) (s : Setup) (phase : Phase) (index : Nat) (entries : List Entry) :
    P (Replay.visitAll s phase index entries) := by
  induction entries generalizing phase index with
  | nil => exact h.result _
  | cons e rest ih =>
    refine h.bind (h.visit s phase index e) (fun _ => rfl) fun v => ?_
    exact h.map (ih v.phase (index + 1)) _

end Compositional

/-! ## What the parts send -/

theorem begins_construct {action : Action} {outcome : Except Failure (Except String String)}
    (h : Generates (construct s action) sent outcome) : Begins (s.construction action) sent := by
  rw [construct_eq] at h
  exact begins_bind (fun _ _ hcall => begins_of_generates (order_ne_nil _ _ _) hcall) h

theorem begins_invoke {action : Action} {outcome : Except Failure (Except String Unit)}
    (h : Generates (invoke s liveId action) sent outcome) : Begins (s.invocation liveId action) sent := by
  rw [invoke_eq] at h
  exact begins_bind (fun _ _ hcall => begins_of_generates (order_ne_nil _ _ _) hcall) h

/-- An awaited construction is sent before anything else. -/
theorem begins_visit_awaiting {outcome : Except Failure Visit} (hkind : kindAt index e = .constructor)
    (h : Generates (visit s .awaitingConstruction index e) sent outcome) :
    Begins (s.construction e.action) sent := by
  rw [visit_awaiting hkind, callThenCompare] at h
  exact begins_bind (fun _ _ hconstruct => begins_construct hconstruct) h

/-- So is the call of an active instance. -/
theorem begins_visit_active {outcome : Except Failure Visit} (hkind : kindAt index e ≠ .constructor)
    (h : Generates (visit s (.active liveId) index e) sent outcome) :
    Begins (s.invocation liveId e.action) sent := by
  rw [visit_active hkind, callThenCompare] at h
  exact begins_bind (fun _ _ hinvoke => begins_invoke hinvoke) h

/-- Without an id there is no good answer to a construction. -/
theorem Setup.resultAs_of_constructed {called : CallResult} {message : String}
    (h : s.constructed called = .error message) : resultAs (s.accepts .constructor) called = false := by
  cases called with
  | error message => rfl
  | ok response =>
    cases hid : response.record s.constructorUrl liveIdOfTree? with
    | error f => simp [resultAs, Setup.accepts, hid, Except.isOk, Except.toBool]
    | ok liveId => exact absurd h (by simp [Setup.constructed, hid, Except.mapError])

theorem construct_trace {outcome : Except Failure (Except String String)}
    (h : Generates (construct s e.action) sent outcome)
    (hcancel : ∀ p ∈ sent, p.2 ≠ .error .cancelled) :
    (∃ liveId response, outcome = .ok (.ok liveId)
        ∧ CallTrace (s.construction e.action) (.ok response) sent
        ∧ response.record s.constructorUrl liveIdOfTree? = .ok liveId)
      ∨ ∃ message called, outcome = .ok (.error message)
        ∧ CallTrace (s.construction e.action) called sent
        ∧ resultAs (s.accepts .constructor) called = false := by
  rw [construct_eq] at h
  obtain ⟨called, before, after, rfl, htrace, _, hrest⟩ := generates_call h hcancel
  obtain ⟨rfl, rfl⟩ := generates_pure.mp hrest
  rw [List.append_nil]
  cases hconstructed : s.constructed called with
  | ok liveId =>
    obtain ⟨response, rfl, hid⟩ := Setup.constructed_eq_ok.mp hconstructed
    exact Or.inl ⟨liveId, response, congrArg Except.ok hconstructed, htrace, hid⟩
  | error message =>
    exact Or.inr ⟨message, called, congrArg Except.ok hconstructed, htrace,
      Setup.resultAs_of_constructed hconstructed⟩

theorem invoke_trace {outcome : Except Failure (Except String Unit)}
    (h : Generates (invoke s liveId e.action) sent outcome)
    (hcancel : ∀ p ∈ sent, p.2 ≠ .error .cancelled) :
    (∃ response, outcome = .ok (.ok ())
        ∧ CallTrace (s.invocation liveId e.action) (.ok response) sent)
      ∨ ∃ message reason, outcome = .ok (.error message)
        ∧ CallTrace (s.invocation liveId e.action) (.error reason) sent := by
  rw [invoke_eq] at h
  obtain ⟨called, before, after, rfl, htrace, _, hrest⟩ := generates_call h hcancel
  obtain ⟨rfl, rfl⟩ := generates_pure.mp hrest
  rw [List.append_nil]
  cases called with
  | error message => exact Or.inr ⟨_, _, rfl, htrace⟩
  | ok response => exact Or.inl ⟨response, rfl, htrace⟩

theorem checkState_trace {outcome : Except Failure (Except String Unit)}
    (h : Generates (checkState s liveId e) sent outcome)
    (hcancel : ∀ p ∈ sent, p.2 ≠ .error .cancelled) :
    ∃ result fetched, outcome = .ok result
      ∧ CallTrace (Request.get (s.instanceUrl liveId)) fetched sent ∧ sent ≠ [] := by
  rw [checkState_eq] at h
  obtain ⟨called, before, after, rfl, htrace, hsome, hrest⟩ := generates_call h hcancel
  obtain ⟨rfl, rfl⟩ := generates_pure.mp hrest
  rw [List.append_nil]
  exact ⟨_, _, rfl, htrace, hsome (order_ne_nil _ _ _)⟩

theorem compareAfter_trace {outcome : Except Failure Visit}
    (h : Generates (compareAfter s liveId e) sent outcome)
    (hcancel : ∀ p ∈ sent, p.2 ≠ .error .cancelled) :
    ∃ result fetched, outcome = .ok (.accepted (.active liveId) result)
      ∧ CallTrace (Request.get (s.instanceUrl liveId)) fetched sent ∧ sent ≠ [] := by
  rw [compareAfter, generates_bind] at h
  obtain ⟨before, after, checked, rfl, hcheck, hrest⟩ := h
  obtain ⟨result, fetched, rfl, hfetch, hsent⟩ :=
    checkState_trace hcheck fun p hp => hcancel p (List.mem_append_left _ hp)
  obtain ⟨rfl, rfl⟩ := generates_pure.mp hrest
  rw [List.append_nil]
  exact ⟨result, fetched, rfl, hfetch, hsent⟩

theorem visit_awaiting_trace {outcome : Except Failure Visit} (hkind : kindAt index e = .constructor)
    (h : Generates (visit s .awaitingConstruction index e) sent outcome)
    (hcancel : ∀ p ∈ sent, p.2 ≠ .error .cancelled) :
    ∃ v, outcome = .ok v ∧ VisitTrace s index e .awaitingConstruction v sent := by
  rw [visit_awaiting hkind, callThenCompare, generates_bind] at h
  obtain ⟨posts, gets, constructed, rfl, hconstruct, hrest⟩ := h
  rcases construct_trace hconstruct fun p hp => hcancel p (List.mem_append_left _ hp) with
    ⟨liveId, response, rfl, hcall, hid⟩ | ⟨message, called, rfl, hcall, hid⟩
  · obtain ⟨result, fetched, rfl, hfetch, hgets⟩ :=
      compareAfter_trace hrest fun p hp => hcancel p (List.mem_append_right _ hp)
    exact ⟨_, rfl, .constructed result hkind hcall hid hfetch hgets⟩
  · obtain ⟨rfl, rfl⟩ := generates_pure.mp hrest
    rw [List.append_nil]
    exact ⟨_, rfl, .notConstructed message hkind hcall hid⟩

theorem visit_active_trace {outcome : Except Failure Visit} (hkind : kindAt index e ≠ .constructor)
    (h : Generates (visit s (.active liveId) index e) sent outcome)
    (hcancel : ∀ p ∈ sent, p.2 ≠ .error .cancelled) :
    ∃ v, outcome = .ok v ∧ VisitTrace s index e (.active liveId) v sent := by
  rw [visit_active hkind, callThenCompare, generates_bind] at h
  obtain ⟨posts, gets, invoked, rfl, hinvoke, hrest⟩ := h
  rcases invoke_trace hinvoke fun p hp => hcancel p (List.mem_append_left _ hp) with
    ⟨response, rfl, hcall⟩ | ⟨message, reason, rfl, hcall⟩
  · obtain ⟨result, fetched, rfl, hfetch, hgets⟩ :=
      compareAfter_trace hrest fun p hp => hcancel p (List.mem_append_right _ hp)
    exact ⟨_, rfl, .invoked result hkind hcall hfetch hgets⟩
  · obtain ⟨rfl, rfl⟩ := generates_pure.mp hrest
    rw [List.append_nil]
    exact ⟨_, rfl, .notInvoked reason message hkind hcall⟩

/-- **What a visit does, one case for each way to go on.** -/
theorem visitTrace_of_generates {phase : Phase} {outcome : Except Failure Visit}
    (h : Generates (visit s phase index e) sent outcome)
    (hcancel : ∀ p ∈ sent, p.2 ≠ .error .cancelled) :
    ∃ v, outcome = .ok v ∧ VisitTrace s index e phase v sent := by
  cases hidle : phase.idles (kindAt index e) with
  | true =>
    obtain ⟨message, hvisit⟩ := visit_idle hidle
    rw [hvisit] at h
    obtain ⟨rfl, rfl⟩ := generates_pure.mp h
    exact ⟨_, rfl, .idle phase message hidle⟩
  | false =>
    cases phase with
    | awaitingConstruction =>
      exact visit_awaiting_trace (by simpa [Phase.idles] using hidle) h hcancel
    | active liveId => exact visit_active_trace (by simpa [Phase.idles] using hidle) h hcancel
    | failed => exact absurd hidle (by simp [Phase.idles])

end

/-! ## Steps -/

/-- One step of a replay: an entry with its index, the phase before it, and what became of it. -/
structure Step where
  index : Nat
  entry : Entry
  before : Phase
  visit : Visit
  sent : List (Request × Reply)

namespace Step

/-- Whether the call of the entry was accepted: a request to change something had a good response,
with a readable id if it was to construct the instance. -/
def accepted (s : Setup) (t : Step) : Bool :=
  t.sent.any (acceptedPost (s.accepts (kindAt t.index t.entry)))

/-- Whether something was sent to a URL. -/
def calls (url : String) (t : Step) : Bool := t.sent.any fun p => p.1.url == url

/-- The message of the report on the entry, if there is one. -/
def message? (t : Step) : Option String :=
  t.visit.error.map fun message =>
    "entry " ++ Number.decimal t.index ++ " (" ++ t.entry.action.name ++ "): " ++ message

end Step

section

variable {s : Setup} {index : Nat} {e : Entry} {before : Phase} {v : Visit}
  {sent : List (Request × Reply)}

theorem VisitTrace.moves (h : VisitTrace s index e before v sent) : before.Moves v.phase := by
  cases h with
  | constructed => exact .constructs _
  | notConstructed => exact .fails
  | invoked => exact .stays _
  | notInvoked => exact .stays _
  | idle => exact .stays _

theorem VisitTrace.sent_of_idles (h : VisitTrace s index e before v sent)
    (hidle : before.idles (kindAt index e) = true) : sent = [] := by
  cases h with
  | constructed _ hkind => simp [Phase.idles, hkind] at hidle
  | notConstructed _ hkind => simp [Phase.idles, hkind] at hidle
  | invoked _ hkind => simp [Phase.idles, hkind] at hidle
  | notInvoked _ _ hkind => simp [Phase.idles, hkind] at hidle
  | idle => rfl

theorem VisitTrace.error_of_not_replayed (h : VisitTrace s index e before v sent)
    (hreplayed : v.replayed = false) : v.error.isSome = true := by
  cases h with
  | constructed => exact absurd hreplayed (by simp [Visit.accepted])
  | notConstructed => rfl
  | invoked => exact absurd hreplayed (by simp [Visit.accepted])
  | notInvoked => rfl
  | idle => rfl

theorem VisitTrace.accepted_eq (h : VisitTrace s index e before v sent) :
    sent.any (acceptedPost (s.accepts (kindAt index e))) = v.replayed := by
  cases h with
  | constructed outcome hkind hcall hid hfetch hgets =>
    rw [List.any_append, hcall.any_acceptedPost rfl, hkind]
    simp [resultAs, Setup.accepts, hid, Except.isOk, Except.toBool, Visit.accepted]
  | notConstructed message hkind hcall hid => rw [hcall.any_acceptedPost rfl, hkind, hid]
  | invoked outcome hkind hcall hfetch hgets =>
    rw [List.any_append, hcall.any_acceptedPost rfl]
    simp [resultAs, Setup.accepts, hkind, Visit.accepted]
  | notInvoked reason message hkind hcall =>
    rw [hcall.any_acceptedPost rfl]
    rfl
  | idle => rfl

theorem VisitTrace.unrefusedPosts_le (h : VisitTrace s index e before v sent) :
    sent.countP unrefusedPost ≤ 1 := by
  cases h with
  | constructed outcome hkind hcall hid hfetch hgets =>
    rw [List.countP_append, hfetch.unrefusedPosts_get]
    exact hcall.unrefusedPosts_le
  | notConstructed message hkind hcall hid => exact hcall.unrefusedPosts_le
  | invoked outcome hkind hcall hfetch hgets =>
    rw [List.countP_append, hfetch.unrefusedPosts_get]
    exact hcall.unrefusedPosts_le
  | notInvoked reason message hkind hcall => exact hcall.unrefusedPosts_le
  | idle => exact Nat.zero_le _

/-- The instance becomes active with the call that constructs it, if that is accepted. -/
theorem VisitTrace.activates (h : VisitTrace s index e .awaitingConstruction v sent) :
    v.replayed = true ↔ ∃ liveId, v.phase = .active liveId := by
  cases h with
  | constructed outcome => simp [Visit.accepted]
  | notConstructed message => simp
  | idle => simp

/-- The call comes first; the state is asked for after it, of the instance that is then active, and
exactly if the call was accepted. -/
theorem VisitTrace.call_then_fetch (h : VisitTrace s index e before v sent) :
    ∃ posts gets, sent = posts ++ gets ∧ (∀ p ∈ posts, p.1.method = .post)
      ∧ (∀ p ∈ gets, p.1.method = .get
        ∧ ∃ liveId, v.phase = .active liveId ∧ p.1.url = s.instanceUrl liveId)
      ∧ (gets ≠ [] ↔ v.replayed = true) := by
  have hposts : ∀ {request : Request} {called : CallResult} {posts : List (Request × Reply)},
      CallTrace request called posts → request.method = .post → ∀ p ∈ posts, p.1.method = .post := by
    intro request called posts hcall hpost p hp
    rw [(hcall.mem_eq p hp).1, hpost]
  cases h with
  | @constructed response liveId fetched posts gets outcome hkind hcall hid hfetch hne =>
    refine ⟨posts, gets, rfl, hposts hcall rfl, ?_, by simp [hne, Visit.accepted]⟩
    intro p hp
    exact ⟨(hfetch.mem_eq p hp).1, liveId, rfl, (hfetch.mem_eq p hp).2⟩
  | notConstructed message hkind hcall hid =>
    exact ⟨sent, [], (List.append_nil sent).symm, hposts hcall rfl, by simp, by simp⟩
  | @invoked response liveId fetched posts gets outcome hkind hcall hfetch hne =>
    refine ⟨posts, gets, rfl, hposts hcall rfl, ?_, by simp [hne, Visit.accepted]⟩
    intro p hp
    exact ⟨(hfetch.mem_eq p hp).1, liveId, rfl, (hfetch.mem_eq p hp).2⟩
  | notInvoked reason message hkind hcall =>
    exact ⟨sent, [], (List.append_nil sent).symm, hposts hcall rfl, by simp, by simp⟩
  | idle => exact ⟨[], [], rfl, by simp, by simp, by simp⟩

theorem instanceUrl_ne (s : Setup) (liveId rest : String) :
    s.instanceUrl liveId ++ rest ≠ s.constructorUrl := by
  intro h
  -- The URL of an instance is longer than the one of the constructor, by a slash at least.
  have hlength := congrArg String.length h
  have hslash : "/".length = 1 := rfl
  simp only [Setup.instanceUrl, Setup.constructorUrl, String.length_append, hslash] at hlength
  omega

/-- The constructor is called while an instance is awaited, and no instance is awaited after it. -/
theorem VisitTrace.of_calls (h : VisitTrace s index e before v sent)
    (hcalls : ∃ p ∈ sent, p.1.url = s.constructorUrl) :
    before = .awaitingConstruction ∧ v.phase ≠ .awaitingConstruction := by
  obtain ⟨p, hp, hurl⟩ := hcalls
  cases h with
  | constructed => exact ⟨rfl, by simp [Visit.accepted]⟩
  | notConstructed => exact ⟨rfl, by simp⟩
  | @invoked response liveId fetched posts gets outcome hkind hcall hfetch hne =>
    rcases List.mem_append.mp hp with hp | hp
    · rw [(hcall.mem_eq p hp).2] at hurl
      exact absurd hurl (instanceUrl_ne s liveId e.action.name)
    · rw [(hfetch.mem_eq p hp).2] at hurl
      refine absurd ?_ (instanceUrl_ne s liveId "")
      rw [String.append_empty]
      exact hurl
  | @notInvoked liveId posts reason message hkind hcall =>
    rw [(hcall.mem_eq p hp).2] at hurl
    exact absurd hurl (instanceUrl_ne s liveId e.action.name)
  | idle => exact absurd hp List.not_mem_nil

end

/-! ## Runs -/

/-- The steps of a run over entries, from a phase and an index on. -/
inductive StepsFrom (s : Setup) : Phase → Nat → List Entry → List Step → Prop
  | nil (phase : Phase) (index : Nat) : StepsFrom s phase index [] []
  | cons {phase : Phase} {index : Nat} {e : Entry} {v : Visit} {sent : List (Request × Reply)}
      {entries : List Entry} {steps : List Step}
      (hvisit : Generates (visit s phase index e) sent (.ok v))
      (htrace : VisitTrace s index e phase v sent)
      (rest : StepsFrom s v.phase (index + 1) entries steps) :
      StepsFrom s phase index (e :: entries) (⟨index, e, phase, v, sent⟩ :: steps)

section

variable {s : Setup}

/-- **A run that is not cancelled visits every entry**, one after the other. -/
theorem stepsFrom_of_generates {entries : List Entry} {phase : Phase} {index : Nat}
    {sent : List (Request × Reply)} {outcome : Except Failure (List (Entry × Visit))}
    (h : Generates (visitAll s phase index entries) sent outcome)
    (hcancel : ∀ p ∈ sent, p.2 ≠ .error .cancelled) :
    ∃ steps, outcome = .ok (steps.map fun t => (t.entry, t.visit))
      ∧ sent = steps.flatMap Step.sent ∧ StepsFrom s phase index entries steps := by
  induction entries generalizing phase index sent outcome with
  | nil =>
    obtain ⟨rfl, rfl⟩ := generates_pure.mp h
    exact ⟨[], rfl, rfl, .nil phase index⟩
  | cons e rest ih =>
    rw [visitAll, generates_bind] at h
    obtain ⟨first, others, visited, rfl, hvisit, hrest⟩ := h
    obtain ⟨v, rfl, htrace⟩ :=
      visitTrace_of_generates hvisit fun p hp => hcancel p (List.mem_append_left _ hp)
    dsimp only at hrest
    rw [generates_bind] at hrest
    obtain ⟨later, none, visits, rfl, hlater, hdone⟩ := hrest
    obtain ⟨rfl, rfl⟩ := generates_pure.mp hdone
    rw [List.append_nil] at hcancel ⊢
    obtain ⟨steps, rfl, rfl, hsteps⟩ := ih hlater fun p hp => hcancel p (List.mem_append_right _ hp)
    exact ⟨⟨index, e, phase, v, first⟩ :: steps, rfl, rfl, .cons hvisit htrace hsteps⟩

variable {phase : Phase} {index : Nat} {entries : List Entry} {steps : List Step}

namespace StepsFrom

theorem mem (h : StepsFrom s phase index entries steps) : ∀ t ∈ steps,
    Generates (visit s t.before t.index t.entry) t.sent (.ok t.visit)
      ∧ VisitTrace s t.index t.entry t.before t.visit t.sent := by
  induction h with
  | nil => simp
  | cons hvisit htrace rest ih =>
    intro t ht
    rcases List.mem_cons.mp ht with rfl | ht
    · exact ⟨hvisit, htrace⟩
    · exact ih t ht

theorem entries_eq (h : StepsFrom s phase index entries steps) :
    steps.map Step.entry = entries := by
  induction h with
  | nil => rfl
  | cons hvisit htrace rest ih => rw [List.map_cons, ih]

theorem indices_eq (h : StepsFrom s phase index entries steps) :
    steps.map Step.index = List.range' index entries.length := by
  induction h with
  | nil => rfl
  | cons hvisit htrace rest ih => rw [List.map_cons, ih, List.length_cons, List.range'_succ]

theorem head_before (h : StepsFrom s phase index entries steps) :
    ∀ t, steps.head? = some t → t.before = phase := by
  cases h with
  | nil => simp
  | cons hvisit htrace rest => simp

/-- Each step begins in the phase in which the one before it ended. -/
theorem isChain (h : StepsFrom s phase index entries steps) :
    steps.IsChain fun t u => u.before = t.visit.phase := by
  induction h with
  | nil => exact List.IsChain.nil
  | cons hvisit htrace rest ih =>
    rw [List.isChain_cons]
    exact ⟨fun u hu => rest.head_before u hu, ih⟩

/-- The messages of the report are those of the steps. -/
theorem messagesFrom_eq (h : StepsFrom s phase index entries steps) :
    messagesFrom index (steps.map fun t => (t.entry, t.visit)) = steps.filterMap Step.message? := by
  induction h with
  | nil => rfl
  | @cons phase index e v sent entries steps hvisit htrace rest ih =>
    rw [List.map_cons, messagesFrom, ih, List.filterMap_cons]
    unfold Step.message?
    cases v.error with
    | none => rfl
    | some message => rfl

/-- Replayed is what was accepted. -/
theorem countP_replayed (h : StepsFrom s phase index entries steps) :
    (steps.map fun t => (t.entry, t.visit)).countP (fun v => v.2.replayed)
      = steps.countP (Step.accepted s) := by
  rw [List.countP_map]
  refine List.countP_congr ?_
  intro t ht
  rw [Step.accepted, (h.mem t ht).2.accepted_eq]
  rfl

/-- After the phase in which an instance is awaited, none is constructed. -/
theorem constructs_eq_zero (h : StepsFrom s phase index entries steps)
    (hphase : phase ≠ .awaitingConstruction) :
    steps.countP (Step.calls s.constructorUrl) = 0 := by
  induction h with
  | nil => rfl
  | @cons phase index e v sent entries steps hvisit htrace rest ih =>
    -- No move leads back to awaiting, so the rest of the run cannot call it either.
    have hstays : v.phase ≠ .awaitingConstruction := by
      intro heq
      have hmoves := htrace.moves
      rw [heq] at hmoves
      cases hmoves
      exact hphase rfl
    have hfirst : ¬ Step.calls s.constructorUrl ⟨index, e, phase, v, sent⟩ = true := by
      intro hcalls
      simp only [Step.calls, List.any_eq_true, beq_iff_eq] at hcalls
      exact hphase (htrace.of_calls hcalls).1
    rw [List.countP_cons_of_neg hfirst, ih hstays]

/-- **At most one step calls the constructor.** -/
theorem constructs_le (h : StepsFrom s phase index entries steps) :
    steps.countP (Step.calls s.constructorUrl) ≤ 1 := by
  induction h with
  | nil => exact Nat.zero_le _
  | @cons phase index e v sent entries steps hvisit htrace rest ih =>
    by_cases hcalls : Step.calls s.constructorUrl ⟨index, e, phase, v, sent⟩ = true
    · rw [List.countP_cons_of_pos hcalls]
      simp only [Step.calls, List.any_eq_true, beq_iff_eq] at hcalls
      -- The step that calls it leaves the phase for good, so nothing after it does.
      rw [rest.constructs_eq_zero (htrace.of_calls hcalls).2]
    · rw [List.countP_cons_of_neg hcalls]
      exact ih

end StepsFrom

/-- A report has no message exactly if no visit has one. -/
theorem messagesFrom_eq_nil {visits : List (Entry × Visit)} {index : Nat} :
    messagesFrom index visits = [] ↔ ∀ v ∈ visits, v.2.error = none := by
  induction visits generalizing index with
  | nil => simp [messagesFrom]
  | cons visit rest ih =>
    obtain ⟨e, v⟩ := visit
    rw [messagesFrom, List.append_eq_nil_iff, ih, List.forall_mem_cons]
    cases v.error <;> simp

theorem compareState_eq_ok {s : Setup} {liveId : String} {e : Entry} {live : Json} :
    compareState s liveId e live = .ok () ↔ canonicalHash (comparable s liveId live) = e.stateHash := by
  unfold compareState
  dsimp only
  split <;> simp_all

/-! ## Replays -/

theorem setup_eq (baseUrl : String) {log : Log} {first : Entry} {rest : List Entry} {identity : Identity}
    (hentries : log.entries = first :: rest) (hidentity : Identity.parse first.id = .ok identity)
    (tokens : PartyTokens) (hints : PartyHints) :
    setup baseUrl log tokens hints = .ok ⟨identity,
      String.ofList (Text.trimEnd (· == '/') baseUrl.toList) ++ identity.route, tokens, hints, log.state,
      logParties log⟩ := by
  unfold setup
  rw [hentries]
  dsimp only
  rw [identityOf, hidentity]
  rfl

theorem setup_eq_ok {baseUrl : String} {log : Log} {tokens : PartyTokens} {hints : PartyHints} {s : Setup}
    (h : setup baseUrl log tokens hints = .ok s) :
    s.finalState = log.state ∧ s.tokens = tokens ∧ s.parties = logParties log := by
  unfold setup at h
  split at h
  · cases h
  · obtain ⟨identity, _, hsetup⟩ := Except.bind_eq_ok.mp h
    obtain rfl := Except.ok.inj hsetup
    exact ⟨rfl, rfl, rfl⟩

/-- The same replay with other tokens and hints. -/
def Setup.with (s : Setup) (tokens : PartyTokens) (hints : PartyHints) : Setup :=
  { s with tokens := tokens, hints := hints }

/-- What a replay goes by that has no tokens and no hints: the URL of the runtime and the log. -/
def Setup.bare (baseUrl : String) (log : Log) (identity : Identity) : Setup :=
  ⟨identity, String.ofList (Text.trimEnd (· == '/') baseUrl.toList) ++ identity.route, ⟨[], none⟩, .none,
    log.state, logParties log⟩

theorem setup_eq_with (baseUrl : String) {log : Log} {first : Entry} {rest : List Entry}
    {identity : Identity} (hentries : log.entries = first :: rest)
    (hidentity : Identity.parse first.id = .ok identity) (tokens : PartyTokens) (hints : PartyHints) :
    setup baseUrl log tokens hints = .ok ((Setup.bare baseUrl log identity).with tokens hints) :=
  setup_eq baseUrl hentries hidentity tokens hints

/-- What holds of the steps of a replay and of its report. -/
structure Orderly (s : Setup) (entries : List Entry) (steps : List Step) (report : ReplayReport) :
    Prop where
  /-- Every entry is visited once, in order. -/
  visited : steps.map Step.entry = entries
  indices : steps.map Step.index = List.range entries.length
  /-- Each step is a run of the visit of its entry, in the phase in which the step before it ended. -/
  visits : ∀ t ∈ steps, Generates (visit s t.before t.index t.entry) t.sent (.ok t.visit)
  first : ∀ t, steps.head? = some t → t.before = .awaitingConstruction
  next : steps.IsChain fun t u => u.before = t.visit.phase
  /-- An instance is awaited, then active under one id or given up for good. -/
  moves : ∀ t ∈ steps, t.before.Moves t.visit.phase
  construction : steps.countP (Step.calls s.constructorUrl) ≤ 1
  /-- Nothing is sent for an entry with nothing to call. -/
  idle : ∀ t ∈ steps, t.before.idles (kindAt t.index t.entry) = true → t.sent = []
  /-- For every other entry its call is sent, before anything else: a construction that was awaited, or an
  action of the active instance. -/
  constructs : ∀ t ∈ steps, t.before = .awaitingConstruction → kindAt t.index t.entry = .constructor →
    Begins (s.construction t.entry.action) t.sent
  invokes : ∀ t ∈ steps, ∀ liveId, t.before = .active liveId → kindAt t.index t.entry ≠ .constructor →
    Begins (s.invocation liveId t.entry.action) t.sent
  /-- The instance becomes active with the construction that was accepted. -/
  activates : ∀ t ∈ steps, t.before = .awaitingConstruction →
    (t.accepted s = true ↔ ∃ liveId, t.visit.phase = .active liveId)
  /-- The report has the messages of the steps, in order. -/
  errors : report.errors = steps.filterMap Step.message?
  /-- The report counts the accepted entries, and every other one has an error. -/
  replayed : report.entriesReplayed = steps.countP (Step.accepted s)
  unaccepted : ∀ t ∈ steps, t.accepted s = false → t.message?.isSome = true
  posts : ∀ t ∈ steps, t.sent.countP unrefusedPost ≤ 1
  /-- The state of the live instance is asked for after the call, exactly if it was accepted. -/
  fetches : ∀ t ∈ steps, ∃ posts gets, t.sent = posts ++ gets
    ∧ (∀ p ∈ posts, p.1.method = .post)
    ∧ (∀ p ∈ gets, p.1.method = .get
      ∧ ∃ liveId, t.visit.phase = .active liveId ∧ p.1.url = s.instanceUrl liveId)
    ∧ (gets ≠ [] ↔ t.accepted s = true)

theorem StepsFrom.orderly (h : StepsFrom s .awaitingConstruction 0 entries steps) :
    Orderly s entries steps (report (steps.map fun t => (t.entry, t.visit))) where
  visited := h.entries_eq
  indices := by rw [h.indices_eq, List.range_eq_range']
  visits := fun t ht => (h.mem t ht).1
  first := h.head_before
  next := h.isChain
  moves := fun t ht => (h.mem t ht).2.moves
  construction := h.constructs_le
  idle := fun t ht => (h.mem t ht).2.sent_of_idles
  constructs := by
    intro t ht hbefore hkind
    have hvisit := (h.mem t ht).1
    rw [hbefore] at hvisit
    exact begins_visit_awaiting hkind hvisit
  invokes := by
    intro t ht liveId hbefore hkind
    have hvisit := (h.mem t ht).1
    rw [hbefore] at hvisit
    exact begins_visit_active hkind hvisit
  activates := by
    intro t ht hbefore
    have htrace := (h.mem t ht).2
    rw [Step.accepted, htrace.accepted_eq]
    rw [hbefore] at htrace
    exact htrace.activates
  errors := h.messagesFrom_eq
  replayed := h.countP_replayed
  unaccepted := by
    intro t ht haccepted
    rw [Step.accepted, (h.mem t ht).2.accepted_eq] at haccepted
    rw [Step.message?, Option.isSome_map]
    exact (h.mem t ht).2.error_of_not_replayed haccepted
  posts := fun t ht => (h.mem t ht).2.unrefusedPosts_le
  fetches := by
    intro t ht
    rw [Step.accepted, (h.mem t ht).2.accepted_eq]
    exact (h.mem t ht).2.call_then_fetch

/-- An action is only accepted while there is an instance to call. -/
theorem Orderly.active_of_accepted {report : ReplayReport} (h : Orderly s entries steps report) {t : Step}
    (ht : t ∈ steps) (hkind : kindAt t.index t.entry ≠ .constructor) (haccepted : t.accepted s = true) :
    ∃ liveId, t.before = .active liveId := by
  have hcalls : t.before.idles (kindAt t.index t.entry) ≠ true := by
    intro hidle
    rw [Step.accepted, h.idle t ht hidle] at haccepted
    exact absurd haccepted Bool.false_ne_true
  cases hbefore : t.before with
  | awaitingConstruction => exact absurd (by simp [Phase.idles, hbefore, hkind]) hcalls
  | active liveId => exact ⟨liveId, rfl⟩
  | failed => exact absurd (by simp [Phase.idles, hbefore]) hcalls

/-- **The phases of a replay.** Whoever replies, a replay of a log whose first entry has an identity
ends with a report, unless it is cancelled, and what was sent are the requests of orderly steps. -/
theorem replay_orderly {σ : Type} {server : σ → Request → Reply × σ}
    (hserver : ∀ state request, (server state request).1 ≠ .error .cancelled) (state : σ)
    (baseUrl : String) {log : Log} {first : Entry} {rest : List Entry} {identity : Identity}
    (hentries : log.entries = first :: rest) (hidentity : Identity.parse first.id = .ok identity)
    (tokens : PartyTokens) (hints : PartyHints) :
    ∃ s steps report, setup baseUrl log tokens hints = .ok s
      ∧ ((replayWith baseUrl log tokens hints).against server state).1 = .ok report
      ∧ ((replayWith baseUrl log tokens hints).against server state).2.1 = steps.flatMap Step.sent
      ∧ Orderly s log.entries steps report := by
  obtain ⟨s, hsetup⟩ : ∃ s, setup baseUrl log tokens hints = .ok s := by
    simp [setup, hentries, identityOf, hidentity, Except.mapError, bind, Except.bind]
  have hrun := Exchange.generates_against server (replayWith baseUrl log tokens hints) state
  have hcancel := Exchange.ne_of_mem_against hserver (replayWith baseUrl log tokens hints) state
  generalize ((replayWith baseUrl log tokens hints).against server state).1 = outcome at hrun ⊢
  generalize ((replayWith baseUrl log tokens hints).against server state).2.1 = sent
    at hrun hcancel ⊢
  rw [replayWith, hsetup] at hrun
  dsimp only at hrun
  rw [generates_bind] at hrun
  obtain ⟨before, after, visits, rfl, hvisits, hdone⟩ := hrun
  obtain ⟨rfl, rfl⟩ := generates_pure.mp hdone
  rw [List.append_nil] at hcancel ⊢
  obtain ⟨steps, rfl, hsent, hsteps⟩ := stepsFrom_of_generates hvisits hcancel
  exact ⟨s, steps, _, hsetup, rfl, hsent, hsteps.orderly⟩

end

/-- A log of two entries that do not name their kinds: a construction and a call. -/
def unkindedLog : Log :=
  let entry (id name : String) : Entry := ⟨id, "", ⟨none, name, []⟩, [], "", none, .blank⟩
  ⟨[entry "urn:npl:localhost/npl/demo/Iou/00000000-0000-0000-0000-000000000000#0" "Iou",
    entry "" "pay"], .object []⟩

/-- A runtime that constructs one instance and then breaks down. -/
def failingRuntime (requests : Nat) (_ : Request) : Reply × Nat :=
  (if requests = 0 then .ok ⟨201, "\x7b\"@id\":\"1\"\x7d"⟩ else .ok ⟨500, ""⟩, requests + 1)

/-- The replay of two entries on a runtime that breaks down after the construction: that is accepted, and
the call is not. -/
theorem replay_orderly_failing :
    let ran := (replayWith "http://localhost" unkindedLog ⟨[], none⟩ .none).against failingRuntime 0
    ∃ s steps report, setup "http://localhost" unkindedLog ⟨[], none⟩ .none = .ok s
      ∧ ran.1 = .ok report
      ∧ ran.2.1 = steps.flatMap Step.sent
      ∧ Orderly s unkindedLog.entries steps report
      ∧ report.entriesReplayed = 1
      ∧ steps.map (Step.accepted s) = [true, false]
      ∧ ran.2.1.map (fun p => (p.1.method, p.1.url))
        = [(.post, "http://localhost/npl/demo/Iou/"), (.get, "http://localhost/npl/demo/Iou/1/"),
          (.post, "http://localhost/npl/demo/Iou/1/pay")] := by
  intro ran
  obtain ⟨identity, hidentity⟩ : ∃ identity, Identity.parse
      "urn:npl:localhost/npl/demo/Iou/00000000-0000-0000-0000-000000000000#0" = .ok identity := by
    exact ⟨_, rfl⟩
  have hserver : ∀ requests request, (failingRuntime requests request).1 ≠ .error .cancelled := by
    intro requests request
    unfold failingRuntime
    split <;> simp
  obtain ⟨s, steps, report, hsetup, hreport, hsent, horderly⟩ :=
    @replay_orderly _ failingRuntime hserver 0 "http://localhost" unkindedLog _ _ identity rfl hidentity
      ⟨[], none⟩ .none
  have hreplayed : report.entriesReplayed = 1 := by
    have hrun : ran.1.map ReplayReport.entriesReplayed = .ok 1 := by decide +kernel
    rw [show ran.1 = .ok report from hreport] at hrun
    exact Except.ok.inj hrun
  refine ⟨s, steps, report, hsetup, hreport, hsent, horderly, hreplayed, ?_, by decide +kernel⟩
  obtain ⟨t, u, rfl⟩ : ∃ t u, steps = [t, u] :=
    List.length_eq_two.mp (by simpa [unkindedLog] using congrArg List.length horderly.visited)
  have hcount : [t, u].countP (Step.accepted s) = 1 := horderly.replayed.symm.trans hreplayed
  have hkind : kindAt u.index u.entry ≠ .constructor := by
    have hindices : [t.index, u.index] = [0, 1] := horderly.indices
    have hentries : [t.entry, u.entry] = unkindedLog.entries := horderly.visited
    simp only [unkindedLog, List.cons.injEq, and_true] at hindices hentries
    rw [hindices.2, hentries.2]
    decide
  -- Were the construction not accepted, the call would be, and there would be no instance to call.
  have haccepted : t.accepted s = true := by
    by_contra hrejected
    obtain ⟨liveId, hactive⟩ := horderly.active_of_accepted (List.mem_cons_of_mem _ List.mem_cons_self)
      hkind (by simpa [List.countP_cons, hrejected] using hcount)
    have hbefore : u.before = t.visit.phase := by simpa using horderly.next
    exact hrejected ((horderly.activates t List.mem_cons_self (horderly.first t rfl)).mpr
      ⟨liveId, hbefore.symm.trans hactive⟩)
  simpa [List.countP_cons, haccepted] using hcount

end AuditTrail.Replay
