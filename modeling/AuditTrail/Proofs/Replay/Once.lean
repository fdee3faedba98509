import AuditTrail.Proofs.Replay.Call
import AuditTrail.Proofs.Replay.Priority

/-!
# A call is made at most once

A request that was refused for lack of rights has changed nothing, so it may be sent again with the next token.
Any other reply may stand for a change, and also no reply at all, so it has to be the last one:

> what was sent for a call is one request, with the tokens in order, and all replies but the last are refusals
> (`Once`).

So nothing is done twice, and nothing that may have been done is tried again. The tokens themselves are in an order
without repetitions, so no token is sent twice either.
-/

namespace AuditTrail.Replay

open Http (Exchange Request Response Reply)
open Http.Exchange (generates_against)

variable {request : Request} {attempts : List Attempt} {sent : List (Request × Reply)}
  {outcome : Except Failure CallResult}

/-- What was sent for a call, and what the call came to, if it was made at most once. -/
structure Once (request : Request) (attempts : List Attempt) (sent : List (Request × Reply))
    (outcome : Except Failure CallResult) : Prop where
  /-- The tokens are tried in order, until a request is not refused. -/
  tried : ∃ m ≤ attempts.length,
    sent.map Prod.fst = (attempts.take m).map (fun a => { request with bearer := a.token })
      ∧ (m = attempts.length ∨ ∃ p, sent.getLast? = some p ∧ refused p.2 = false)
  earlier : ∀ p ∈ sent.dropLast, refused p.2 = true
  unrefused : sent.countP (fun p => !refused p.2) ≤ 1
  accepted : ∀ response, outcome = .ok (.ok response)
    ↔ (∃ r, sent.getLast? = some (r, .ok response)) ∧ response.isSuccess = true
  cancelled : ∀ f, outcome = .error f ↔ f = .cancelled ∧ ∃ r, sent.getLast? = some (r, .error .cancelled)
  failed : (∃ message, outcome = .ok (.error message))
    ↔ (¬ ∃ r response, sent.getLast? = some (r, .ok response) ∧ response.isSuccess = true)
      ∧ ¬ ∃ r, sent.getLast? = some (r, .error .cancelled)
  exhausted : (∀ p ∈ sent, refused p.2 = true) → ∃ message, outcome = .ok (.error message)

namespace Search

theorem tried (h : Search request attempts sent outcome) : ∃ m ≤ attempts.length,
    sent.map Prod.fst = (attempts.take m).map (fun a => { request with bearer := a.token })
      ∧ (m = attempts.length ∨ ∃ p, sent.getLast? = some p ∧ refused p.2 = false) := by
  cases h with
  | exhausted message hsent hrefused =>
    refine ⟨attempts.length, Nat.le_refl _, ?_, Or.inl rfl⟩
    rw [List.take_length]
    exact hsent
  | @settled before refusals attempt after reply hsent hrefused hreply =>
    refine ⟨before.length + 1, by simp, ?_, Or.inr ⟨_, List.getLast?_concat, hreply⟩⟩
    rw [List.take_length_add_append, List.map_append, List.map_append, hsent]
    rfl

/-- A call is accepted if the last reply accepts it. -/
theorem accepted (h : Search request attempts sent outcome) (response : Response) :
    outcome = .ok (.ok response)
      ↔ (∃ r, sent.getLast? = some (r, .ok response)) ∧ response.isSuccess = true := by
  cases h with
  | exhausted message hsent hrefused =>
    refine ⟨fun heq => absurd heq (by simp), ?_⟩
    rintro ⟨⟨r, hlast⟩, hsuccess⟩
    have hfailed := not_isSuccess_of_refused (hrefused _ (List.mem_of_getLast? hlast))
    exact absurd (hfailed.symm.trans hsuccess) Bool.false_ne_true
  | settled attempt after hsent hrefused hreply =>
    rw [List.getLast?_concat, settled_eq_ok_ok]
    simp

/-- A call is cancelled if the last request is, and nothing else ends a replay. -/
theorem cancelled (h : Search request attempts sent outcome) (f : Failure) :
    outcome = .error f ↔ f = .cancelled ∧ ∃ r, sent.getLast? = some (r, .error .cancelled) := by
  cases h with
  | exhausted message hsent hrefused =>
    refine ⟨fun heq => absurd heq (by simp), ?_⟩
    rintro ⟨_, r, hlast⟩
    exact absurd (hrefused _ (List.mem_of_getLast? hlast)) (by simp [refused])
  | settled attempt after hsent hrefused hreply =>
    rw [List.getLast?_concat, settled_eq_error]
    simp

/-- A call that is neither accepted nor cancelled fails. -/
theorem failed (h : Search request attempts sent outcome) :
    (∃ message, outcome = .ok (.error message))
      ↔ (¬ ∃ r response, sent.getLast? = some (r, .ok response) ∧ response.isSuccess = true)
        ∧ ¬ ∃ r, sent.getLast? = some (r, .error .cancelled) := by
  constructor
  · rintro ⟨message, rfl⟩
    constructor
    · rintro ⟨r, response, hlast, hsuccess⟩
      exact absurd ((h.accepted response).mpr ⟨⟨r, hlast⟩, hsuccess⟩) (by simp)
    · rintro ⟨r, hlast⟩
      exact absurd ((h.cancelled .cancelled).mpr ⟨rfl, r, hlast⟩) (by simp)
  · rintro ⟨hunaccepted, huncancelled⟩
    cases outcome with
    | error f => exact absurd ((h.cancelled f).mp rfl).2 huncancelled
    | ok result =>
      cases result with
      | error message => exact ⟨message, rfl⟩
      | ok response =>
        obtain ⟨⟨r, hlast⟩, hsuccess⟩ := (h.accepted response).mp rfl
        exact absurd ⟨r, response, hlast, hsuccess⟩ hunaccepted

theorem once (h : Search request attempts sent outcome) : Once request attempts sent outcome where
  tried := h.tried
  earlier := by
    cases h with
    | exhausted message hsent hrefused => exact fun p hp => hrefused p ((List.dropLast_sublist _).subset hp)
    | settled attempt after hsent hrefused hreply =>
      rw [List.dropLast_concat]
      exact hrefused
  unrefused := by
    cases h with
    | exhausted message hsent hrefused =>
      rw [List.countP_eq_zero.mpr fun p hp => by simp [hrefused p hp]]
      exact Nat.zero_le 1
    | settled attempt after hsent hrefused hreply =>
      rw [List.countP_append, List.countP_eq_zero.mpr fun p hp => by simp [hrefused p hp], Nat.zero_add]
      exact List.countP_le_length
  accepted := h.accepted
  cancelled := h.cancelled
  failed := h.failed
  exhausted := by
    intro hall
    cases h with
    | exhausted message hsent hrefused => exact ⟨message, rfl⟩
    | settled attempt after hsent hrefused hreply =>
      have hrefusal := hall _ (List.mem_append_right _ List.mem_cons_self)
      exact absurd (hreply.symm.trans hrefusal) Bool.false_ne_true

/-- Tokens that differ are sent once each. -/
theorem nodup_bearers (h : Search request attempts sent outcome)
    (htokens : (attempts.map Attempt.token).Nodup) : (sent.map fun p => p.1.bearer).Nodup := by
  obtain ⟨m, _, hsent, _⟩ := h.tried
  have hbearers := congrArg (List.map Request.bearer) hsent
  rw [List.map_map, List.map_map] at hbearers
  exact hbearers ▸ (htokens.sublist ((List.take_sublist m attempts).map Attempt.token))

end Search

/-- **A call is made at most once**, whoever replies and whatever was replied before: tokens are tried until a
request is not refused. With the tokens in the order in which they are to be tried, a request is sent, and no token is
sent twice. -/
theorem callWith_once {σ : Type} (server : σ → Request → Reply × σ) (state : σ) (request : Request) :
    (∀ attempts, let ended := (callWith request attempts).against server state
      Once request attempts ended.2.1 ended.1)
      ∧ ∀ (t : PartyTokens) (hint : Option String) (audited : List String),
        let ended := (callWith request (t.order hint audited)).against server state
        (ended.2.1.map fun p => p.1.bearer).Nodup ∧ t.order hint audited ≠ [] ∧ ended.2.1 ≠ [] := by
  constructor
  · intro attempts ended
    exact (search_of_generates (generates_against server _ state)).once
  · intro t hint audited ended
    have hpath := generates_against server (callWith request (t.order hint audited)) state
    have hsome := order_ne_nil t hint audited
    exact ⟨(search_of_generates hpath).nodup_bearers (t.nodup_order hint audited), hsome,
      (begins_of_generates hsome hpath).ne_nil⟩

end AuditTrail.Replay
