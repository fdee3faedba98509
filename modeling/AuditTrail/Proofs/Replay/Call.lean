import AuditTrail.Proofs.Http.Exchange
import AuditTrail.Replay.Run

/-!
# What a call sends

A call is one request, sent with one token after the other. What was sent is a list of refusals for
lack of rights, and then at most one reply of another kind, which is the result of the call (`Search`).

If nothing was cancelled, the tokens can be left out of it (`CallTrace`). Everything that is counted over
the requests of a replay is counted over such lists: at most one request of a call was not refused, and
one was accepted exactly if the call was.
-/

namespace AuditTrail.Replay

open Http (Exchange Request Response Reply)
open Http.Exchange (Generates generates_bind generates_pure generates_send)

/-- Whether a reply refuses a request for lack of rights. -/
def refused : Reply → Bool
  | .ok response => response.status == 403
  | .error _ => false

/-- Whether a reply accepts a request, with a response of a given kind. -/
def acceptedAs (kind : Response → Bool) : Reply → Bool
  | .ok response => response.isSuccess && kind response
  | .error _ => false

/-- A request to change something that was not refused for lack of rights. -/
def unrefusedPost (p : Request × Reply) : Bool := p.1.method == .post && !refused p.2

/-- A request to change something that was accepted, with a response of a given kind. -/
def acceptedPost (kind : Response → Bool) (p : Request × Reply) : Bool :=
  p.1.method == .post && acceptedAs kind p.2

/-- Whether a call was accepted, with a response of a given kind. -/
def resultAs (kind : Response → Bool) : CallResult → Bool
  | .ok response => kind response
  | .error _ => false

/-- What a call makes of a reply that does not refuse it. -/
def settled (request : Request) : Reply → Except Failure CallResult
  | .error .cancelled => .error .cancelled
  | .error f => .ok (.error f.message)
  | .ok response =>
    if response.isSuccess then .ok (.ok response)
    else .ok (.error ("HTTP " ++ Number.decimal response.status ++ " from " ++ request.url))

/-- One attempt of a call: only a refusal leads to the next one. -/
theorem callWith_cons (request : Request) (attempt : Attempt) (rest : List Attempt) :
    callWith request (attempt :: rest) = (do
      let reply ← Exchange.send (request.withBearer attempt.token)
      if refused reply then callWith request rest else pure (settled request reply)) := by
  rw [callWith]
  congr 1
  funext reply
  cases reply with
  | error f => cases f <;> rfl
  | ok response =>
    by_cases hstatus : response.status = 403
    · simp [refused, hstatus]
    · by_cases hsuccess : response.isSuccess <;> simp [refused, settled, hstatus, hsuccess]

/-! ## The search for a token -/

section

variable {request : Request} {attempts : List Attempt} {sent : List (Request × Reply)}
  {outcome : Except Failure CallResult} {reply : Reply} {response : Response}

theorem settled_eq_ok_ok :
    settled request reply = .ok (.ok response) ↔ reply = .ok response ∧ response.isSuccess = true := by
  constructor
  · intro h
    cases reply with
    | error f => cases f <;> simp [settled] at h
    | ok received =>
      unfold settled at h
      dsimp only at h
      split at h
      · rename_i hsuccess
        obtain rfl : received = response := by simpa using h
        exact ⟨rfl, hsuccess⟩
      · simp at h
  · rintro ⟨rfl, hsuccess⟩
    simp [settled, hsuccess]

theorem settled_eq_error {f : Failure} :
    settled request reply = .error f ↔ f = .cancelled ∧ reply = .error .cancelled := by
  cases reply with
  | error failure => cases failure <;> simp [settled, eq_comm]
  | ok response => by_cases hsuccess : response.isSuccess = true <;> simp [settled, hsuccess]

theorem ne_error_of_refused (h : refused reply = true) (f : Failure) :
    reply ≠ .error f := by
  rintro rfl
  exact absurd h Bool.false_ne_true

theorem not_isSuccess_of_refused (h : refused (.ok response) = true) : response.isSuccess = false := by
  have hstatus : response.status = 403 := by simpa [refused] using h
  simp [Response.isSuccess, hstatus]

theorem refusal_of_mem {tried : List Attempt} {refusals : List (Request × Reply)}
    (hsent : refusals.map Prod.fst = tried.map fun a => request.withBearer a.token)
    (hrefused : ∀ p ∈ refusals, refused p.2 = true) :
    ∀ p ∈ refusals, refused p.2 = true ∧ ∃ token, p.1 = request.withBearer token := by
  intro p hp
  have hasked : p.1 ∈ tried.map fun a => request.withBearer a.token := hsent ▸ List.mem_map_of_mem hp
  obtain ⟨a, _, ha⟩ := List.mem_map.mp hasked
  exact ⟨hrefused p hp, a.token, ha.symm⟩

/-- How the search for a token ends: with no token left, or with the first reply that is not a refusal, and then
that reply decides what the call comes to. -/
inductive Search (request : Request) :
    List Attempt → List (Request × Reply) → Except Failure CallResult → Prop
  | exhausted {attempts : List Attempt} {refusals : List (Request × Reply)} (message : String)
      (hsent : refusals.map Prod.fst = attempts.map fun a => request.withBearer a.token)
      (hrefused : ∀ p ∈ refusals, refused p.2 = true) :
      Search request attempts refusals (.ok (.error message))
  | settled {before : List Attempt} {refusals : List (Request × Reply)} (attempt : Attempt)
      (after : List Attempt) {reply : Reply}
      (hsent : refusals.map Prod.fst = before.map fun a => request.withBearer a.token)
      (hrefused : ∀ p ∈ refusals, refused p.2 = true) (hreply : refused reply = false) :
      Search request (before ++ attempt :: after)
        (refusals ++ [(request.withBearer attempt.token, reply)]) (settled request reply)

/-- One more refusal to begin with. -/
theorem Search.cons {attempt : Attempt} (hreply : refused reply = true)
    (h : Search request attempts sent outcome) :
    Search request (attempt :: attempts) ((request.withBearer attempt.token, reply) :: sent) outcome := by
  cases h with
  | exhausted message hsent hrefused =>
    refine .exhausted message ?_ (List.forall_mem_cons.mpr ⟨hreply, hrefused⟩)
    rw [List.map_cons, List.map_cons, hsent]
  | settled last after hsent hrefused hlast =>
    rw [← List.cons_append, ← List.cons_append]
    refine .settled last after ?_ (List.forall_mem_cons.mpr ⟨hreply, hrefused⟩) hlast
    rw [List.map_cons, List.map_cons, hsent]

/-- **A call is a search for a token.** -/
theorem search_of_generates (h : Generates (callWith request attempts) sent outcome) :
    Search request attempts sent outcome := by
  induction attempts generalizing sent with
  | nil =>
    obtain ⟨rfl, rfl⟩ := generates_pure.mp h
    exact .exhausted _ rfl (by simp)
  | cons attempt rest ih =>
    rw [callWith_cons] at h
    obtain ⟨before, after, reply, rfl, hsend, hrest⟩ := generates_bind.mp h
    rw [generates_send.mp hsend, List.singleton_append]
    cases hreply : refused reply with
    | true =>
      rw [hreply, if_pos rfl] at hrest
      exact (ih hrest).cons hreply
    | false =>
      rw [hreply, if_neg Bool.false_ne_true] at hrest
      obtain ⟨rfl, rfl⟩ := generates_pure.mp hrest
      exact @Search.settled request [] [] attempt rest reply rfl (by simp) hreply

/-- The response of an accepted call is the reply to one of its attempts. -/
theorem replied_of_generates
    (h : Generates (callWith request attempts) sent (.ok (.ok response))) :
    ∃ token, (request.withBearer token, .ok response) ∈ sent := by
  generalize houtcome : (.ok (.ok response) : Except Failure CallResult) = outcome at h
  cases search_of_generates h with
  | exhausted message hsent hrefused => exact absurd houtcome (by simp)
  | settled attempt after hsent hrefused hreply =>
    rw [(settled_eq_ok_ok.mp houtcome.symm).1]
    exact ⟨attempt.token, List.mem_append_right _ List.mem_cons_self⟩

/-- Whether a request was the first to be sent, with whatever token. -/
def Begins (request : Request) (sent : List (Request × Reply)) : Prop :=
  ∃ token reply rest, sent = (request.withBearer token, reply) :: rest

theorem Begins.ne_nil (h : Begins request sent) : sent ≠ [] := by
  obtain ⟨token, reply, rest, rfl⟩ := h
  exact List.cons_ne_nil _ _

/-- What a program begins with, it still begins with if another one follows. -/
theorem begins_bind {α β : Type} {x : Exchange α} {next : α → Exchange β} {b : β}
    (hx : ∀ before a, Generates x before a → Begins request before) (h : Generates (x >>= next) sent b) :
    Begins request sent := by
  obtain ⟨before, after, a, rfl, hfirst, _⟩ := generates_bind.mp h
  obtain ⟨token, reply, rest, rfl⟩ := hx before a hfirst
  exact ⟨token, reply, rest ++ after, rfl⟩

/-- A call with something to try sends its request. -/
theorem begins_of_generates (hattempts : attempts ≠ [])
    (h : Generates (callWith request attempts) sent outcome) : Begins request sent := by
  obtain ⟨attempt, rest, rfl⟩ := List.exists_cons_of_ne_nil hattempts
  rw [callWith_cons] at h
  refine begins_bind (fun before reply hsend => ?_) h
  exact ⟨attempt.token, reply, [], generates_send.mp hsend⟩

end

/-! ## What a call leaves behind -/

/-- The result of a call, with the requests it has sent and their replies. -/
inductive CallTrace (request : Request) : CallResult → List (Request × Reply) → Prop
  | exhausted (message : String) : CallTrace request (.error message) []
  | refused {result : CallResult} {sent : List (Request × Reply)} (token : Option String)
      (response : Response) (hstatus : response.status = 403) (rest : CallTrace request result sent) :
      CallTrace request result ((request.withBearer token, .ok response) :: sent)
  | unanswered (token : Option String) (f : Failure) (message : String) :
      CallTrace request (.error message) [(request.withBearer token, .error f)]
  | rejected (token : Option String) (response : Response) (message : String)
      (hrejected : response.isSuccess = false) :
      CallTrace request (.error message) [(request.withBearer token, .ok response)]
  | accepted (token : Option String) (response : Response) (hsuccess : response.isSuccess = true) :
      CallTrace request (.ok response) [(request.withBearer token, .ok response)]

/-- Refusals of the same request before. -/
theorem CallTrace.append {request : Request} {result : CallResult} {sent refusals : List (Request × Reply)}
    (h : CallTrace request result sent)
    (hrefusals : ∀ p ∈ refusals, Replay.refused p.2 = true ∧ ∃ token, p.1 = request.withBearer token) :
    CallTrace request result (refusals ++ sent) := by
  induction refusals with
  | nil => exact h
  | cons first rest ih =>
    obtain ⟨⟨hrefused, token, hfirst⟩, hrest⟩ := List.forall_mem_cons.mp hrefusals
    obtain ⟨asked, reply⟩ := first
    obtain rfl : asked = request.withBearer token := hfirst
    cases reply with
    | error f => exact absurd rfl (ne_error_of_refused hrefused f)
    | ok response => exact .refused token response (by simpa [Replay.refused] using hrefused) (ih hrest)

theorem CallTrace.of_reply (request : Request) (token : Option String) {reply : Reply}
    (hcancel : reply ≠ .error .cancelled) :
    ∃ result, settled request reply = .ok result
      ∧ CallTrace request result [(request.withBearer token, reply)] := by
  cases reply with
  | error f =>
    cases f with
    | cancelled => exact absurd rfl hcancel
    | _ => exact ⟨_, rfl, .unanswered token _ _⟩
  | ok response =>
    by_cases hsuccess : response.isSuccess = true
    · exact ⟨.ok response, by simp [settled, hsuccess], .accepted token response hsuccess⟩
    · refine ⟨_, by rw [settled, if_neg hsuccess], .rejected token response _ ?_⟩
      simpa using hsuccess

/-- **A call that is not cancelled leaves such a trace.** -/
theorem callTrace_of_generates {request : Request} {attempts : List Attempt}
    {sent : List (Request × Reply)} {outcome : Except Failure CallResult}
    (h : Generates (callWith request attempts) sent outcome)
    (hcancel : ∀ p ∈ sent, p.2 ≠ .error .cancelled) :
    ∃ result, outcome = .ok result ∧ CallTrace request result sent := by
  cases search_of_generates h with
  | exhausted message hsent hrefused =>
    have hlast : CallTrace request (.error message) [] := .exhausted message
    have htrace := hlast.append (refusal_of_mem hsent hrefused)
    rw [List.append_nil] at htrace
    exact ⟨_, rfl, htrace⟩
  | settled attempt after hsent hrefused hreply =>
    obtain ⟨result, hresult, htrace⟩ := CallTrace.of_reply request attempt.token
      (hcancel _ (List.mem_append_right _ List.mem_cons_self))
    exact ⟨result, hresult, htrace.append (refusal_of_mem hsent hrefused)⟩

/-- What goes on after a call goes on with its result. -/
theorem generates_call {α : Type} {request : Request} {attempts : List Attempt}
    {next : Except Failure CallResult → Exchange α} {sent : List (Request × Reply)} {outcome : α}
    (h : Generates (callWith request attempts >>= next) sent outcome)
    (hcancel : ∀ p ∈ sent, p.2 ≠ .error .cancelled) :
    ∃ called before after, sent = before ++ after ∧ CallTrace request called before
      ∧ (attempts ≠ [] → before ≠ []) ∧ Generates (next (.ok called)) after outcome := by
  rw [generates_bind] at h
  obtain ⟨before, after, result, rfl, hcall, hnext⟩ := h
  obtain ⟨called, rfl, htrace⟩ :=
    callTrace_of_generates hcall fun p hp => hcancel p (List.mem_append_left _ hp)
  exact ⟨called, before, after, rfl, htrace, fun hattempts => (begins_of_generates hattempts hcall).ne_nil, hnext⟩

theorem order_ne_nil (t : PartyTokens) (hint : Option String) (audited : List String) :
    t.order hint audited ≠ [] := by
  have hguard : ∀ attempts : List Attempt,
      (if attempts.isEmpty then [PartyTokens.anonymous] else attempts) ≠ [] := by
    intro attempts
    cases attempts <;> simp
  exact hguard _

/-! ## Counting over a call -/

namespace CallTrace

variable {request : Request} {result : CallResult} {sent : List (Request × Reply)}

theorem mem_eq (h : CallTrace request result sent) :
    ∀ p ∈ sent, p.1.method = request.method ∧ p.1.url = request.url := by
  induction h with
  | exhausted message => simp
  | refused token response hstatus rest ih =>
    intro p hp
    rcases List.mem_cons.mp hp with rfl | hp
    · exact ⟨rfl, rfl⟩
    · exact ih p hp
  | unanswered token f message => simp [Request.withBearer]
  | rejected token response message hrejected => simp [Request.withBearer]
  | accepted token response hsuccess => simp [Request.withBearer]

/-- At most one request was not refused. -/
theorem unrefusedPosts_le (h : CallTrace request result sent) : sent.countP unrefusedPost ≤ 1 := by
  induction h with
  | exhausted message => simp
  | refused token response hstatus rest ih =>
    simpa [unrefusedPost, Replay.refused, hstatus] using ih
  | unanswered token f message => exact List.countP_le_length
  | rejected token response message hrejected => exact List.countP_le_length
  | accepted token response hsuccess => exact List.countP_le_length

/-- A request was accepted exactly if the call was. -/
theorem any_acceptedPost (h : CallTrace request result sent) (hpost : request.method = .post)
    (kind : Response → Bool) : sent.any (acceptedPost kind) = resultAs kind result := by
  induction h with
  | exhausted message => rfl
  | refused token response hstatus rest ih =>
    have hfailed : response.isSuccess = false := by simp [Response.isSuccess, hstatus]
    rw [List.any_cons, ih]
    simp [acceptedPost, acceptedAs, hfailed]
  | unanswered token f message => simp [acceptedPost, acceptedAs, resultAs]
  | rejected token response message hrejected => simp [acceptedPost, acceptedAs, resultAs, hrejected]
  | accepted token response hsuccess =>
    simp [acceptedPost, acceptedAs, resultAs, hsuccess, Request.withBearer, hpost]

/-- Fetching changes nothing. -/
theorem method_ne_post {url : String} (h : CallTrace (Request.get url) result sent) :
    ∀ p ∈ sent, (p.1.method == .post) = false := by
  intro p hp
  rw [(h.mem_eq p hp).1]
  rfl

theorem unrefusedPosts_get {url : String} (h : CallTrace (Request.get url) result sent) :
    sent.countP unrefusedPost = 0 := by
  rw [List.countP_eq_zero]
  intro p hp
  simp [unrefusedPost, h.method_ne_post p hp]

end CallTrace

end AuditTrail.Replay
