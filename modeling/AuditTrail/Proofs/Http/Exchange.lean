import AuditTrail.Http.Exchange

/-!
# What was sent, and what came of it

A program that sends requests is a tree, and a run of it is a path: the requests in order, each with
its reply, and the result at the end (`Exchange.Generates`). A path says nothing about who replied.
So whatever is proved of all paths holds against every server, also one that remembers all requests
before (`generates_against`).

> A path of a program followed by another is a path of the first and a path of the second
> (`generates_bind`).

Two programs may send different requests and still come to the same. They are `Alike` before a server if
it brings them to one result and is left in one state.
-/

namespace AuditTrail.Http.Exchange

variable {α β σ : Type}

/-- Whether requests with their replies are a run of a program, with a given result. -/
inductive Generates : Exchange α → List (Request × Reply) → α → Prop
  | done (result : α) : Generates (.done result) [] result
  | ask {request : Request} {next : Reply → Exchange α} {sent : List (Request × Reply)} {result : α}
      (reply : Reply) (rest : Generates (next reply) sent result) :
      Generates (.ask request next) ((request, reply) :: sent) result

/-- **Every run against a server is a path of the program.** -/
theorem generates_against (server : σ → Request → Reply × σ) (program : Exchange α) (state : σ) :
    Generates program (program.against server state).2.1 (program.against server state).1 := by
  induction program generalizing state with
  | done result => exact .done result
  | ask request next ih => exact .ask _ (ih _ _)

/-- A server that never gives a reply gives it in no run. -/
theorem ne_of_mem_against {server : σ → Request → Reply × σ} {reply : Reply}
    (h : ∀ state request, (server state request).1 ≠ reply) (program : Exchange α) (state : σ) :
    ∀ p ∈ (program.against server state).2.1, p.2 ≠ reply := by
  induction program generalizing state with
  | done result =>
    intro p hp
    exact absurd hp List.not_mem_nil
  | ask request next ih =>
    intro p hp
    rcases List.mem_cons.mp hp with rfl | hp
    · exact h state request
    · exact ih _ _ p hp

theorem generates_pure {a b : α} {sent : List (Request × Reply)} :
    Generates (pure a) sent b ↔ sent = [] ∧ b = a := by
  constructor
  · intro h
    cases h
    exact ⟨rfl, rfl⟩
  · rintro ⟨rfl, rfl⟩
    exact .done _

theorem generates_send {request : Request} {sent : List (Request × Reply)} {reply : Reply} :
    Generates (send request) sent reply ↔ sent = [(request, reply)] := by
  constructor
  · intro h
    cases h with
    | ask reply' rest =>
      cases rest
      rfl
  · rintro rfl
    exact .ask reply (.done reply)

/-- A path of one program followed by another. -/
theorem generates_bind {x : Exchange α} {f : α → Exchange β} {sent : List (Request × Reply)}
    {result : β} : Generates (x >>= f) sent result ↔
      ∃ before after a, sent = before ++ after ∧ Generates x before a
        ∧ Generates (f a) after result := by
  constructor
  · intro h
    -- The requests of the second program begin where the tree of the first ends.
    induction x generalizing sent with
    | done a => exact ⟨[], sent, a, rfl, .done a, h⟩
    | ask request next ih =>
      cases h with
      | ask reply rest =>
        obtain ⟨before, after, a, rfl, hbefore, hafter⟩ := ih reply rest
        exact ⟨(request, reply) :: before, after, a, rfl, .ask reply hbefore, hafter⟩
  · rintro ⟨before, after, a, rfl, hbefore, hafter⟩
    induction hbefore with
    | done a => exact hafter
    | ask reply rest ih => exact .ask reply (ih hafter)

/-- Whatever the replies, a program ends with a result that has a property. -/
def Ends (p : α → Prop) (x : Exchange α) : Prop := ∀ sent a, Generates x sent a → p a

theorem ends_pure {p : α → Prop} {a : α} (h : p a) : Ends p (pure a) := by
  intro sent b hgenerates
  rw [(generates_pure.mp hgenerates).2]
  exact h

/-- A program ends as the one that comes last in it. -/
theorem Ends.bind {p : α → Prop} {q : β → Prop} {x : Exchange α} {f : α → Exchange β} (hx : Ends p x)
    (hf : ∀ a, p a → Ends q (f a)) : Ends q (x >>= f) := by
  intro sent b h
  obtain ⟨before, after, a, _, hfirst, hrest⟩ := generates_bind.mp h
  exact hf a (hx before a hfirst) after b hrest

/-! ## What a server makes of a program -/

/-- A program followed by another sends what the first sends, and then what the second sends. -/
theorem against_bind (server : σ → Request → Reply × σ) (state : σ) (x : Exchange α)
    (f : α → Exchange β) :
    (x >>= f).against server state
      = let first := x.against server state
        let second := (f first.1).against server first.2.2
        (second.1, first.2.1 ++ second.2.1, second.2.2) := by
  induction x generalizing state with
  | done a => rfl
  | ask request next ih =>
    have hrest := ih (server state request).1 (server state request).2
    simp only [Bind.bind, Exchange.bind, against] at hrest ⊢
    rw [hrest]
    rfl

/-- Against a server in one state, a program ends with a result and leaves the server in another. -/
def Yields (server : σ → Request → Reply × σ) (state : σ) (program : Exchange α) (result : α)
    (state' : σ) : Prop :=
  (program.against server state).1 = result ∧ (program.against server state).2.2 = state'

section

variable {server : σ → Request → Reply × σ} {state state' state'' : σ}

theorem Yields.pure (state : σ) (result : α) :
    Yields server state (pure result : Exchange α) result state := ⟨rfl, rfl⟩

theorem Yields.send {request : Request} {reply : Reply} (h : server state request = (reply, state')) :
    Yields server state (send request) reply state' := by
  unfold Yields Exchange.send Exchange.against
  rw [h]
  exact ⟨rfl, rfl⟩

/-- One program after the other. -/
theorem Yields.bind {x : Exchange α} {f : α → Exchange β} {a : α} {b : β}
    (hx : Yields server state x a state') (hf : Yields server state' (f a) b state'') :
    Yields server state (x >>= f) b state'' := by
  induction x generalizing state with
  | done result =>
    obtain ⟨rfl, rfl⟩ := hx
    exact hf
  | ask request next ih => exact ih _ hx

/-- A server brings two programs to one result, whatever its state, and is left by both in one state. -/
def Alike (server : σ → Request → Reply × σ) (x y : Exchange α) : Prop :=
  ∀ state, ∃ a state', Yields server state x a state' ∧ Yields server state y a state'

theorem Alike.refl (x : Exchange α) : Alike server x x := fun _ => ⟨_, _, ⟨rfl, rfl⟩, ⟨rfl, rfl⟩⟩

theorem Alike.bind {x y : Exchange α} {f g : α → Exchange β} (hx : Alike server x y)
    (hf : ∀ a, Alike server (f a) (g a)) : Alike server (x >>= f) (y >>= g) := by
  intro state
  obtain ⟨a, state', hxa, hya⟩ := hx state
  obtain ⟨b, state'', hfb, hgb⟩ := hf a state'
  exact ⟨b, state'', hxa.bind hfb, hya.bind hgb⟩

end

/-! ## What a program may send -/

section

variable {p q : Request → Prop}

theorem All.mono (h : ∀ request, p request → q request) {x : Exchange α} (hx : All p x) : All q x := by
  induction x with
  | done a => trivial
  | ask request next ih => exact ⟨h request hx.1, fun reply => ih reply (hx.2 reply)⟩

theorem all_pure (a : α) : All p (pure a : Exchange α) := trivial

theorem all_send {request : Request} : All p (send request) ↔ p request := by
  simp [send, All]

/-- A program followed by another: only results that the first can have matter. -/
theorem All.bind {x : Exchange α} {f : α → Exchange β} (hx : All p x)
    (hf : ∀ sent a, Generates x sent a → All p (f a)) : All p (x >>= f) := by
  induction x with
  | done a => exact hf [] a (.done a)
  | ask request next ih =>
    refine ⟨hx.1, fun reply => ih reply (hx.2 reply) ?_⟩
    intro sent a hnext
    exact hf ((request, reply) :: sent) a (.ask reply hnext)

/-- What is sent on a path is what the program may send. -/
theorem All.of_generates {x : Exchange α} (hx : All p x) {sent : List (Request × Reply)} {a : α}
    (h : Generates x sent a) : ∀ exchanged ∈ sent, p exchanged.1 := by
  induction h with
  | done a => simp
  | ask reply rest ih => exact List.forall_mem_cons.mpr ⟨hx.1, ih (hx.2 reply)⟩

end

end AuditTrail.Http.Exchange
