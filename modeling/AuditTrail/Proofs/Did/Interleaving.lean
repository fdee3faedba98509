import AuditTrail.Proofs.Did.Slots
import Mathlib.Algebra.GroupWithZero.Nat
import Mathlib.Data.List.Dedup
import Mathlib.Data.List.Induction

/-!
# One document for each DID, fetched once

However the calls of a resolver take turns, a step of the system is a step of one call, with the slot of
its DID (`step_cases`). Seen from that DID it is a step in the sense of `View.Step`; seen from any other
DID nothing happens (`view_step`). So the invariant of one slot holds of every slot in every run
(`sound_run`), and what the resolver promises follows from it:

> a document is fetched at most once, by one call at a time; all calls that succeed return it; a call
> that fails leaves nothing behind; and all calls finish, unless one of them is denied its turn for good
> (`document_fetched_once`).
-/

namespace AuditTrail.Did

open Http (Request Reply)

/-! ## Steps of the system -/

/-- A step of one call, with the slot of its DID. -/
structure Takes (settings : Settings) (s s' : System) (before after : List Task) (t t' : Task)
    (slot : Slot) (events : List Event) : Prop where
  acts : Acts settings t.call.did (s.cache.slotOf t.call.did) t slot t' events
  tasks : s.tasks = before ++ t :: after
  tasks' : s'.tasks = before ++ t' :: after
  trace' : s'.trace = s.trace ++ events
  /-- The slot is put back into the cache, unless it is as it was. -/
  cache' : s'.cache = s.cache.put t.call.did slot ∨ s'.cache = s.cache ∧ slot = s.cache.slotOf t.call.did

theorem split_of_getElem? {α : Type} {as : List α} {i : Nat} {a : α} (h : as[i]? = some a) :
    ∃ before after, as = before ++ a :: after ∧ before.length = i
      ∧ ∀ b, as.set i b = before ++ b :: after := by
  obtain ⟨hlt, rfl⟩ := List.getElem?_eq_some_iff.mp h
  refine ⟨as.take i, as.drop (i + 1), ?_, List.length_take_of_le (Nat.le_of_lt hlt), ?_⟩
  · rw [List.getElem_cons_drop, List.take_append_drop]
  · intro b
    rw [List.set_eq_take_append_cons_drop, if_pos hlt]

/-- The turn of a call that can go on is a step of that call. -/
theorem takes_of_advance {settings : Settings} {s : System} {turn : Turn} {t : Task}
    (ht : s.tasks[turn.1]? = some t) (hgoes : (t.call.advance settings s.cache).isSome = true) :
    ∃ before after t' slot events, Takes settings s (s.step settings turn) before after t t' slot events
      ∧ before.length = turn.1 := by
  obtain ⟨before, after, htasks, hlength, hset⟩ := split_of_getElem? ht
  obtain ⟨call, pending⟩ := t
  obtain ⟨move, hadvance⟩ := Option.isSome_iff_exists.mp hgoes
  unfold System.step
  rw [ht]
  dsimp only at hadvance ⊢
  rw [hadvance]
  cases move with
  | changes cache call' =>
    obtain ⟨slot, hacts, hcache⟩ := acts_of_changes pending hadvance
    exact ⟨before, after, _, slot, [], ⟨hacts, htasks, hset _, (List.append_nil _).symm, hcache⟩, hlength⟩
  | asks request next =>
    obtain ⟨hsends, hreceives⟩ := acts_of_asks hadvance (s.cache.slotOf call.did)
    cases pending with
    | true =>
      exact ⟨before, after, _, _, _, ⟨hreceives turn.2, htasks, hset _, rfl, Or.inr ⟨rfl, rfl⟩⟩, hlength⟩
    | false => exact ⟨before, after, _, _, _, ⟨hsends, htasks, hset _, rfl, Or.inr ⟨rfl, rfl⟩⟩, hlength⟩

/-- **A turn is a step of the call whose turn it is, or nothing happens.** -/
theorem step_cases (settings : Settings) (s : System) (turn : Turn) :
    s.step settings turn = s ∨ ∃ before after t t' slot events,
      Takes settings s (s.step settings turn) before after t t' slot events
        ∧ before.length = turn.1 := by
  cases ht : s.tasks[turn.1]? with
  | none =>
    left
    rw [System.step, ht]
  | some t =>
    cases hadvance : t.call.advance settings s.cache with
    | none =>
      left
      rw [System.step, ht]
      dsimp only
      rw [hadvance]
    | some move =>
      obtain ⟨before, after, t', slot, events, htakes⟩ :=
        @takes_of_advance settings s turn t ht (by rw [hadvance]; rfl)
      exact Or.inr ⟨before, after, t, t', slot, events, htakes⟩

section

variable {settings : Settings} {s s' : System} {before after : List Task} {t t' : Task} {slot : Slot}
  {events : List Event}

theorem Takes.slotOf_eq (h : Takes settings s s' before after t t' slot events) (did : String) :
    s'.cache.slotOf did = if did = t.call.did then slot else s.cache.slotOf did := by
  rcases h.cache' with hcache | ⟨hcache, hslot⟩
  · rw [hcache, Cache.slotOf_put]
  · rw [hcache, hslot]
    split
    · rename_i hdid
      rw [hdid]
    · rfl

theorem Takes.getElem?_eq (h : Takes settings s s' before after t t' slot events) :
    s.tasks[before.length]? = some t ∧ s'.tasks[before.length]? = some t' := by
  rw [h.tasks, h.tasks']
  simp

end

/-- A system seen from one DID. -/
def System.view (s : System) (did : String) : View := ⟨s.cache.slotOf did, s.tasksOf did, s.traceOf did⟩

/-- Seen from one DID, a turn is a step of one of its calls, or nothing happens. -/
theorem view_step (settings : Settings) (s : System) (turn : Turn) (did : String) :
    (s.step settings turn).view did = s.view did
      ∨ View.Step settings did (s.view did) ((s.step settings turn).view did) := by
  rcases step_cases settings s turn with hsame | ⟨before, after, t, t', slot, events, htakes, _⟩
  · exact Or.inl (by rw [hsame])
  · obtain ⟨_, hdid', hevents⟩ := htakes.acts.did_eq
    have hslot := htakes.slotOf_eq did
    unfold System.view System.tasksOf System.traceOf
    rw [htakes.tasks, htakes.tasks', htakes.trace', hslot, List.filter_append, List.filter_append,
      List.filter_append, List.filter_cons, List.filter_cons, hdid']
    by_cases hdid : did = t.call.did
    · right
      have hall : events.filter (fun e => e.did == did) = events :=
        List.filter_eq_self.mpr fun e he => by rw [hevents e he, hdid, beq_self_eq_true]
      rw [hall, hdid, if_pos rfl, beq_self_eq_true, if_pos rfl, if_pos rfl]
      exact .acts _ _ _ htakes.acts
    · left
      have hnone : events.filter (fun e => e.did == did) = [] :=
        List.filter_eq_nil_iff.mpr fun e he => by
          rw [hevents e he, beq_iff_eq]
          exact fun heq => hdid heq.symm
      have hother : (t.call.did == did) = false := beq_eq_false_iff_ne.mpr fun heq => hdid heq.symm
      rw [hnone, if_neg hdid, hother, List.append_nil]
      rfl

/-! ## Runs -/

/-- What holds at the start and is kept by every turn holds in every run. -/
theorem run_induction {settings : Settings} {dids : List String} {P : System → Prop}
    (hstart : P (.start dids)) (hstep : ∀ s turn, P s → P (s.step settings turn)) (turns : List Turn) :
    P ((System.start dids).run settings turns) := by
  induction turns using List.reverseRecOn with
  | nil => exact hstart
  | append_singleton turns turn ih =>
    rw [System.run, List.foldl_append]
    exact hstep _ turn ih

theorem sound_start (settings : Settings) (dids : List String) (did : String) :
    ((System.start dids).view did).Sound settings did := by
  have hstarted : ∀ t ∈ (System.start dids).tasksOf did, ∃ d, t = ⟨⟨d, .started⟩, false⟩ := by
    intro t ht
    obtain ⟨d, _, rfl⟩ := List.mem_map.mp (List.mem_of_mem_filter ht)
    exact ⟨d, rfl⟩
  have hnone : ∀ p : Task → Bool, (∀ d, p ⟨⟨d, .started⟩, false⟩ = false) →
      ((System.start dids).tasksOf did).countP p = 0 := by
    intro p hp
    rw [List.countP_eq_zero]
    intro t ht
    obtain ⟨d, rfl⟩ := hstarted t ht
    simp [hp]
  refine ⟨hnone _ fun _ => rfl, ?_, fun _ => rfl, Nat.zero_le _, fun h => absurd rfl h,
    List.Pairwise.nil, by simp [System.view, System.start, System.traceOf], ?_⟩
  · intro t ht
    obtain ⟨d, rfl⟩ := hstarted t ht
    exact ⟨by simp, trivial⟩
  · intro url _
    have hzero := hnone Task.inVain fun _ => rfl
    show 0 = ((System.start dids).tasksOf did).countP Task.inVain + 0
    rw [hzero]

/-- **In every run, each slot, the calls for it and their trace belong together.** -/
theorem sound_run (settings : Settings) (dids : List String) (turns : List Turn) (did : String) :
    (((System.start dids).run settings turns).view did).Sound settings did := by
  refine run_induction (P := fun s => (s.view did).Sound settings did)
    (sound_start settings dids did) ?_ turns
  intro s turn hs
  rcases view_step settings s turn did with hsame | hstep
  · rw [hsame]
    exact hs
  · exact hstep.sound hs

theorem dids_run (settings : Settings) (dids : List String) (turns : List Turn) :
    ((System.start dids).run settings turns).tasks.map (fun t => t.call.did) = dids := by
  refine run_induction (P := fun s => s.tasks.map (fun t => t.call.did) = dids) ?_ ?_ turns
  · simp [System.start, Function.comp_def]
  · intro s turn hs
    rcases step_cases settings s turn with hsame | ⟨before, after, t, t', slot, events, htakes, _⟩
    · rw [hsame]
      exact hs
    · rw [← hs, htakes.tasks, htakes.tasks', List.map_append, List.map_append, List.map_cons,
        List.map_cons, htakes.acts.did_eq.2.1]

theorem nodup_run (settings : Settings) (dids : List String) (turns : List Turn) :
    ((System.start dids).run settings turns).cache.dids.Nodup := by
  refine run_induction (P := fun s => s.cache.dids.Nodup) List.nodup_nil ?_ turns
  intro s turn hs
  rcases step_cases settings s turn with hsame | ⟨before, after, t, t', slot, events, htakes, _⟩
  · rw [hsame]
    exact hs
  · rcases htakes.cache' with hcache | ⟨hcache, _⟩
    · rw [hcache]
      exact Cache.nodup_dids_put _ _ hs
    · rw [hcache]
      exact hs

/-- **A run that is not over can go on.** A call may have to wait for a slot, but never do all of them. -/
theorem exists_advance (settings : Settings) (dids : List String) (turns : List Turn) :
    let s := (System.start dids).run settings turns
    ∀ t ∈ s.tasks, t.isFinished = false →
      ∃ u ∈ s.tasks, (u.call.advance settings s.cache).isSome = true := by
  intro s t ht hopen
  cases hadvance : t.call.advance settings s.cache with
  | some move => exact ⟨t, ht, by rw [hadvance]; rfl⟩
  | none =>
    -- The call waits for a slot that is held, and the one that holds it does not wait.
    have hheld := held_of_advance hadvance hopen
    have hcount : (s.tasksOf t.call.did).countP Task.holds = (s.cache.slotOf t.call.did).held.toNat :=
      (sound_run settings dids turns t.call.did).held
    obtain ⟨u, hu, hholds⟩ := List.countP_pos_iff.mp (show 0 < _ by rw [hcount, hheld]; decide)
    exact ⟨u, List.mem_of_mem_filter hu, advance_of_holds hholds _⟩

/-! ## Progress

A turn in which something happens takes a step from what is left to do, and there is only so much of it. So
the calls are all finished sooner or later, provided that none of them is denied its turn for good. -/

/-- How many steps the calls have left at most. -/
def System.stepsLeft (s : System) : Nat := (s.tasks.map Task.stepsLeft).sum

theorem Takes.stepsLeft_lt {settings : Settings} {s s' : System} {before after : List Task} {t t' : Task}
    {slot : Slot} {events : List Event} (h : Takes settings s s' before after t t' slot events) :
    s'.stepsLeft < s.stepsLeft := by
  have hless := h.acts.stepsLeft_lt
  unfold System.stepsLeft
  rw [h.tasks, h.tasks', List.map_append, List.map_append, List.map_cons, List.map_cons, List.sum_append,
    List.sum_append, List.sum_cons, List.sum_cons]
  omega

/-- The turns of a schedule change nothing, or they leave less to do. -/
theorem run_eq_or_stepsLeft_lt (settings : Settings) (s : System) (turns : List Turn) :
    s.run settings turns = s ∨ (s.run settings turns).stepsLeft < s.stepsLeft := by
  induction turns generalizing s with
  | nil => exact Or.inl rfl
  | cons turn rest ih =>
    have hrest := ih (s.step settings turn)
    show (s.step settings turn).run settings rest = s
      ∨ ((s.step settings turn).run settings rest).stepsLeft < s.stepsLeft
    rcases step_cases settings s turn with hsame | ⟨_, _, _, _, _, _, htakes, _⟩
    · rw [hsame] at hrest ⊢
      exact hrest
    · right
      rcases hrest with hrest | hless
      · rw [hrest]
        exact htakes.stepsLeft_lt
      · exact Nat.lt_trans hless htakes.stepsLeft_lt

/-- The turn of each of a number of calls comes again and again. -/
def Fair (calls : Nat) (schedule : Nat → Turn) : Prop :=
  ∀ i < calls, ∀ n, ∃ k, (schedule (n + k)).1 = i

/-- To go round is fair. -/
theorem fair_round (calls : Nat) (replies : Nat → Reply) : Fair calls fun n => (n % calls, replies n) := by
  intro i hi n
  refine ⟨calls - n % calls + i, ?_⟩
  have hrest : n % calls < calls := Nat.mod_lt n (by omega)
  have hround : n + (calls - n % calls + i) = calls * (n / calls + 1) + i := by
    have hn := Nat.div_add_mod n calls
    rw [Nat.mul_add_one]
    omega
  show (n + (calls - n % calls + i)) % calls = i
  rw [hround, Nat.mul_add_mod, Nat.mod_eq_of_lt hi]

/-- Takes the first turns of a schedule that has no end. -/
def System.after (settings : Settings) (schedule : Nat → Turn) (s : System) (n : Nat) : System :=
  s.run settings ((List.range n).map schedule)

theorem run_append (settings : Settings) (s : System) (turns more : List Turn) :
    s.run settings (turns ++ more) = (s.run settings turns).run settings more := List.foldl_append

section

variable {settings : Settings} {dids : List String} {turns : List Turn} {schedule : Nat → Turn} {s : System}

theorem after_add (n k : Nat) : s.after settings schedule (n + k)
    = (s.after settings schedule n).run settings ((List.range k).map fun i => schedule (n + i)) := by
  rw [System.after, List.range_add, List.map_append, run_append, List.map_map]
  rfl

theorem after_succ (n : Nat) : s.after settings schedule (n + 1)
    = (s.after settings schedule n).step settings (schedule n) := after_add n 1

/-- As long as a call is open, there will be less left to do. -/
theorem exists_stepsLeft_lt (hfair : Fair dids.length schedule) (n : Nat) {t : Task}
    (hs : s = (System.start dids).run settings turns) (ht : t ∈ (s.after settings schedule n).tasks)
    (hopen : t.isFinished = false) :
    ∃ m, (s.after settings schedule m).stepsLeft < (s.after settings schedule n).stepsLeft := by
  have hreached : s.after settings schedule n
      = (System.start dids).run settings (turns ++ (List.range n).map schedule) := by
    rw [run_append, ← hs]
    rfl
  rw [hreached] at ht
  obtain ⟨u, hu, hgoes⟩ := exists_advance settings dids _ t ht hopen
  rw [← hreached] at hu hgoes
  obtain ⟨i, hi⟩ := List.mem_iff_getElem?.mp hu
  have hcalls : (s.after settings schedule n).tasks.length = dids.length := by
    rw [hreached, ← List.length_map, dids_run]
  obtain ⟨k, hk⟩ := hfair i (hcalls ▸ (List.getElem?_eq_some_iff.mp hi).1) n
  rcases run_eq_or_stepsLeft_lt settings (s.after settings schedule n)
    ((List.range k).map fun i => schedule (n + i)) with hsame | hless
  · -- Nothing has happened until the turn of the call that can go on.
    refine ⟨n + k + 1, ?_⟩
    rw [← after_add] at hsame
    rw [after_succ, hsame]
    obtain ⟨_, _, _, _, _, htakes, _⟩ := takes_of_advance (hk ▸ hi) hgoes
    exact htakes.stepsLeft_lt
  · exact ⟨n + k, by rwa [after_add]⟩

/-- **Under a fair schedule all calls finish.** -/
theorem exists_finished (hfair : Fair dids.length schedule) :
    let s := (System.start dids).run settings turns
    ∃ n, ∀ t ∈ (s.after settings schedule n).tasks, t.isFinished = true := by
  intro s
  suffices hfrom : ∀ n, ∃ m, ∀ t ∈ (s.after settings schedule m).tasks, t.isFinished = true from hfrom 0
  intro n
  generalize hleft : (s.after settings schedule n).stepsLeft = left
  induction left using Nat.strongRecOn generalizing n with
  | ind left ih =>
    by_cases hall : ∀ t ∈ (s.after settings schedule n).tasks, t.isFinished = true
    · exact ⟨n, hall⟩
    · obtain ⟨t, hrest⟩ := not_forall.mp hall
      obtain ⟨ht, hopen⟩ := Classical.not_imp.mp hrest
      obtain ⟨m, hless⟩ := exists_stepsLeft_lt hfair n rfl ht (Bool.eq_false_iff.mpr hopen)
      exact ih _ (hleft ▸ hless) m rfl

end

/-! ## What is left when all calls are finished -/

section

variable {settings : Settings} {did : String} {s : System}

theorem mem_tasksOf {t : Task} : t ∈ s.tasksOf did ↔ t ∈ s.tasks ∧ t.call.did = did := by
  simp [System.tasksOf]

theorem exists_result {t : Task} (h : t.isFinished = true) :
    ∃ result, t.call.progress = .finished result := by
  unfold Task.isFinished at h
  split at h
  · exact ⟨_, ‹_›⟩
  · exact absurd h (by simp)

/-- A call that returned a document returned the one that was received. -/
theorem View.Sound.documents_eq (h : (s.view did).Sound settings did) {t : Task}
    (ht : t ∈ s.tasksOf did) {document : DidDocument}
    (hresult : t.call.progress = .finished (.ok document)) : documents (s.traceOf did) = [document] := by
  have hfits := (h.tasks t ht).2
  rw [hresult] at hfits
  exact hfits

/-- A document was received exactly if a call returned one. -/
theorem View.Sound.any_hasSucceeded (h : (s.view did).Sound settings did)
    (hfinished : ∀ t ∈ s.tasksOf did, t.isFinished = true) :
    (s.tasksOf did).any Task.hasSucceeded = true ↔ documents (s.traceOf did) ≠ [] := by
  rw [List.any_eq_true]
  constructor
  · rintro ⟨t, ht, hsucceeded⟩
    obtain ⟨⟨d, progress⟩, pending⟩ := t
    cases progress with
    | finished result =>
      cases result with
      | ok document => rw [h.documents_eq ht rfl]; simp
      | error f => simp [Task.hasSucceeded] at hsucceeded
    | _ => simp [Task.hasSucceeded] at hsucceeded
  · intro hreceived
    obtain ⟨t, ht, hsucceeds⟩ := h.owner hreceived
    refine ⟨t, ht, ?_⟩
    obtain ⟨result, hresult⟩ := exists_result (hfinished t ht)
    cases result <;> simp_all [Task.succeeds, Task.hasSucceeded]

/-- Once all calls are finished, each failed one has sent a request of its own, and the others have sent
one together. -/
theorem View.Sound.countP_sent (h : (s.view did).Sound settings did)
    (hfinished : ∀ t ∈ s.tasksOf did, t.isFinished = true) {url : String}
    (hlocation : location settings did = .ok url) :
    (s.traceOf did).countP Event.isSent = (s.tasksOf did).countP Task.hasFailed
      + if (s.tasksOf did).any Task.hasSucceeded = true then 1 else 0 := by
  have hsent := h.sent url hlocation
  change (s.traceOf did).countP Event.isSent
    = (s.tasksOf did).countP Task.inVain + (documents (s.traceOf did)).length at hsent
  have hvain : (s.tasksOf did).countP Task.inVain = (s.tasksOf did).countP Task.hasFailed := by
    refine List.countP_congr ?_
    intro t ht
    obtain ⟨result, hresult⟩ := exists_result (hfinished t ht)
    cases result <;> simp [Task.inVain, Task.hasFailed, hresult]
  have honce : (documents (s.traceOf did)).length ≤ 1 := h.once
  rw [hsent, hvain]
  congr 1
  split
  · rename_i hany
    have := List.length_pos_iff.mpr ((h.any_hasSucceeded hfinished).mp hany)
    omega
  · rename_i hnone
    rw [(h.any_hasSucceeded hfinished).not, not_not] at hnone
    rw [hnone]
    rfl

/-- Where a DID has no location, nothing is sent for it. -/
theorem View.Sound.trace_eq_nil (h : (s.view did).Sound settings did) {fault : LocationFault}
    (hlocation : location settings did = .error fault) : s.traceOf did = [] := by
  rw [List.eq_nil_iff_forall_not_mem]
  intro e he
  obtain ⟨url, hurl, _⟩ := h.requests e he
  rw [hlocation] at hurl
  exact absurd hurl (by simp)

/-- Once all calls are finished, the slot of a DID has a document exactly if a call returned one. -/
theorem View.Sound.document_isSome (h : (s.view did).Sound settings did)
    (hfinished : ∀ t ∈ s.tasksOf did, t.isFinished = true) :
    (s.cache.slotOf did).document.isSome = true ↔ (s.tasksOf did).any Task.hasSucceeded = true := by
  have hholds : (s.tasksOf did).countP Task.holds = 0 := by
    rw [List.countP_eq_zero]
    intro t ht
    obtain ⟨result, hresult⟩ := exists_result (hfinished t ht)
    simp [Task.holds, hresult]
  have hfree : (s.cache.slotOf did).held = false := by
    have hheld : (s.tasksOf did).countP Task.holds = (s.cache.slotOf did).held.toNat := h.held
    rw [hholds] at hheld
    cases hslot : (s.cache.slotOf did).held with
    | true => simp [hslot] at hheld
    | false => rfl
  have hdocument : (s.cache.slotOf did).document = (documents (s.traceOf did)).head? := h.free hfree
  rw [hdocument, h.any_hasSucceeded hfinished, List.isSome_head?]

/-- Of the calls for one DID, only the one that holds the slot can be fetching. -/
theorem View.Sound.countP_fetches (h : (s.view did).Sound settings did) :
    (s.tasksOf did).countP Task.fetches ≤ 1 := by
  have hheld : (s.tasksOf did).countP Task.holds = (s.cache.slotOf did).held.toNat := h.held
  have hfetches : (s.tasksOf did).countP Task.fetches ≤ (s.tasksOf did).countP Task.holds := by
    refine List.countP_mono_left ?_
    intro t _ hfetches
    obtain ⟨⟨d, progress⟩, pending⟩ := t
    cases progress <;> simp_all [Task.fetches, Task.holds]
  have hone := Bool.toNat_le (s.cache.slotOf did).held
  omega

/-- The requests for a DID that were sent, once all calls for it are finished. -/
theorem View.Sound.countP_isSent (h : (s.view did).Sound settings did)
    (hfinished : ∀ t ∈ s.tasksOf did, t.isFinished = true) :
    (s.traceOf did).countP Event.isSent
      = if (location settings did).isOk then (s.tasksOf did).countP Task.hasFailed
          + if (s.tasksOf did).any Task.hasSucceeded = true then 1 else 0
        else 0 := by
  cases hlocation : location settings did with
  | ok url => exact h.countP_sent hfinished hlocation
  | error fault =>
    rw [h.trace_eq_nil hlocation]
    rfl

/-- Two events of one DID are in order in the trace of the DID too. -/
theorem silent_of_sound (h : ∀ did, (s.view did).Sound settings did) :
    s.trace.Pairwise fun e e' => e'.did = e.did → e.document?.isSome = true → e'.isSent = false := by
  rw [List.pairwise_iff_forall_sublist]
  intro e e' hsub hdid
  have hboth : [e, e'].filter (fun e' => e'.did == e.did) = [e, e'] := by simp [hdid]
  have hsubOf : [e, e'].Sublist (s.traceOf e.did) := by
    rw [← hboth]
    exact hsub.filter _
  exact List.pairwise_iff_forall_sublist.mp (h e.did).silent hsubOf

/-- A turn of a call leaves the slots of all other DIDs as they are. -/
theorem slot?_step_of_ne {turn : Turn} {t : Task} (ht : s.tasks[turn.1]? = some t)
    (hdid : did ≠ t.call.did) : (s.step settings turn).cache.slot? did = s.cache.slot? did := by
  rcases step_cases settings s turn with hsame | ⟨before, after, t₀, t', slot, events, htakes, hturn⟩
  · rw [hsame]
  · rw [← hturn, htakes.getElem?_eq.1, Option.some.injEq] at ht
    rcases htakes.cache' with hcache | ⟨hcache, _⟩
    · rw [hcache, Cache.slot?_put, if_neg (ht ▸ hdid)]
    · rw [hcache]

/-- The turn in which a call comes to an error gives its slot back as it was made. -/
theorem slotOf_step_of_error (h : ∀ did, (s.view did).Sound settings did) {turn : Turn} {t t' : Task}
    {f : Failure} (ht : s.tasks[turn.1]? = some t)
    (ht' : (s.step settings turn).tasks[turn.1]? = some t') (hopen : t.isFinished = false)
    (hresult : t'.call.progress = .finished (.error f)) :
    (s.step settings turn).cache.slotOf t.call.did = ⟨none, false⟩ := by
  rcases step_cases settings s turn with hsame | ⟨before, after, t₀, t₀', slot, events, htakes, hturn⟩
  · rw [hsame, ht, Option.some.injEq] at ht'
    rw [ht', Task.isFinished, hresult] at hopen
    exact absurd hopen (by simp)
  · rw [← hturn, htakes.getElem?_eq.1, Option.some.injEq] at ht
    rw [← hturn, htakes.getElem?_eq.2, Option.some.injEq] at ht'
    subst ht ht'
    have hfits := (h t₀.call.did).tasks t₀ (mem_tasksOf.mpr ⟨by simp [htakes.tasks], rfl⟩)
    rw [htakes.slotOf_eq, if_pos rfl]
    exact htakes.acts.slot_of_error hfits hresult

/-- The documents in a cache belong to different DIDs. -/
theorem count_eq {dids : List String} (hnodup : s.cache.dids.Nodup) {p : String → Bool}
    (hdocument : ∀ did, (s.cache.slotOf did).document.isSome = true ↔ p did = true)
    (hdids : ∀ did, p did = true → did ∈ dids) : s.cache.count = (dids.dedup.filter p).length := by
  have hslot : ∀ did, (∃ slot, (did, slot) ∈ s.cache ∧ slot.document.isSome = true)
      ↔ (s.cache.slotOf did).document.isSome = true := by
    intro did
    simp only [← Cache.slot?_eq_some hnodup, Cache.slotOf]
    cases s.cache.slot? did <;> simp
  -- Both lists name the DIDs with a document, each once.
  have hperm : ((s.cache.filter fun entry => entry.2.document.isSome).map Prod.fst).Perm
      (dids.dedup.filter p) := by
    refine (List.perm_ext_iff_of_nodup ?_ ((List.nodup_dedup dids).filter p)).mpr ?_
    · exact hnodup.sublist (List.filter_sublist.map _)
    · intro did
      rw [List.mem_filter, List.mem_dedup, and_iff_right_of_imp (hdids did), ← hdocument, ← hslot]
      simp
  rw [← hperm.length_eq, List.length_map, Cache.count, List.countP_eq_length_filter]

end

/-! ## What the resolver promises -/

/-- What holds of a resolver and the calls that share it. -/
structure FetchedOnce (settings : Settings) (dids : List String) (s : System) : Prop where
  calls : s.tasks.map (fun t => t.call.did) = dids
  /-- One call at most fetches the document of a DID. -/
  alone : ∀ did, (s.tasksOf did).countP Task.fetches ≤ 1
  requests : ∀ e ∈ s.trace, ∃ url, location settings e.did = .ok url ∧ e.request = Request.get url
  /-- Once the document of a DID was received, nothing is sent for that DID. -/
  silent : s.trace.Pairwise fun e e' =>
    e'.did = e.did → e.document?.isSome = true → e'.isSent = false
  /-- One document was received for a DID if a call for it returned one, and this is the one. -/
  same : ∀ t ∈ s.tasks, ∀ document, t.call.progress = .finished (.ok document) →
    documents (s.traceOf t.call.did) = [document]
  /-- A turn of a call leaves the slots of all other DIDs as they are. -/
  others : ∀ turn t did, s.tasks[turn.1]? = some t → did ≠ t.call.did →
    (s.step settings turn).cache.slot? did = s.cache.slot? did
  /-- A call that returns an error leaves its slot free and without a document. -/
  failure : ∀ turn t t' f, s.tasks[turn.1]? = some t →
    (s.step settings turn).tasks[turn.1]? = some t' → t.isFinished = false →
    t'.call.progress = .finished (.error f) →
    (s.step settings turn).cache.slotOf t.call.did = ⟨none, false⟩
  /-- When all calls are finished, each failed one has sent a request, and the others one together. -/
  sent : (∀ t ∈ s.tasks, t.isFinished = true) → ∀ did,
    (s.traceOf did).countP Event.isSent
      = if (location settings did).isOk then (s.tasksOf did).countP Task.hasFailed
          + if (s.tasksOf did).any Task.hasSucceeded = true then 1 else 0
        else 0
  /-- And the cache has a document for each DID for which a call returned one. -/
  cached : (∀ t ∈ s.tasks, t.isFinished = true) →
    s.cache.count = (dids.dedup.filter fun did => (s.tasksOf did).any Task.hasSucceeded).length
  /-- As long as a call is open, there is one that can go on. -/
  goesOn : ∀ t ∈ s.tasks, t.isFinished = false →
    ∃ u ∈ s.tasks, (u.call.advance settings s.cache).isSome = true
  /-- If every call gets its turn again and again, all calls are finished sooner or later. -/
  finishes : ∀ schedule, Fair dids.length schedule →
    ∃ n, ∀ t ∈ (s.after settings schedule n).tasks, t.isFinished = true

/-- **Each document is fetched once.** Whatever the calls, their turns and the replies. -/
theorem document_fetched_once (settings : Settings) (dids : List String) (turns : List Turn) :
    FetchedOnce settings dids ((System.start dids).run settings turns) := by
  have hsound := sound_run settings dids turns
  have hcalls := dids_run settings dids turns
  have hnodup := nodup_run settings dids turns
  have hgoes := exists_advance settings dids turns
  have hfinishes := fun schedule => @exists_finished settings dids turns schedule
  generalize (System.start dids).run settings turns = s at hsound hcalls hnodup hgoes hfinishes
  have hfinishedOf : (∀ t ∈ s.tasks, t.isFinished = true) →
      ∀ did, ∀ t ∈ s.tasksOf did, t.isFinished = true :=
    fun hfinished did t ht => hfinished t (mem_tasksOf.mp ht).1
  exact {
    calls := hcalls
    alone := fun did => (hsound did).countP_fetches
    requests := fun e he => (hsound e.did).requests e (List.mem_filter.mpr ⟨he, beq_self_eq_true _⟩)
    silent := silent_of_sound hsound
    same := fun t ht document hresult => (hsound _).documents_eq (mem_tasksOf.mpr ⟨ht, rfl⟩) hresult
    others := fun turn t did ht hdid => slot?_step_of_ne ht hdid
    failure := fun turn t t' f ht ht' hopen hresult => slotOf_step_of_error hsound ht ht' hopen hresult
    sent := fun hfinished did => (hsound did).countP_isSent (hfinishedOf hfinished did)
    cached := by
      intro hfinished
      refine count_eq hnodup (fun did => (hsound did).document_isSome (hfinishedOf hfinished did)) ?_
      intro did hany
      obtain ⟨t, ht, _⟩ := List.any_eq_true.mp hany
      obtain ⟨hmem, hdid⟩ := mem_tasksOf.mp ht
      rw [← hcalls, ← hdid]
      exact List.mem_map_of_mem hmem
    goesOn := hgoes
    finishes := hfinishes }

/-- Two calls for one DID take turns. The first one gets no document, so the second one asks again. -/
theorem document_fetched_once_retry :
    let did := "did:web:example.com"
    let schedule := fun n : Nat => ((n % 2, if n % 2 = 0 then .ok ⟨500, ""⟩
      else .ok ⟨200, "\x7b\"id\":\"d\"\x7d"⟩) : Turn)
    let turns := (List.range 24).map schedule
    let s := (System.start [did, did]).run ⟨"https", none⟩ turns
    (∀ t ∈ s.tasks, t.isFinished = true) ∧ s.tasks.map Task.hasSucceeded = [false, true]
      ∧ (s.traceOf did).countP Event.isSent = 2 ∧ s.cache.count = 1
      ∧ ∃ n, ∀ t ∈ ((System.start [did, did]).after ⟨"https", none⟩ schedule n).tasks,
        t.isFinished = true := by
  intro did schedule turns s
  have honce : FetchedOnce ⟨"https", none⟩ [did, did] s := document_fetched_once _ _ turns
  have hfinished : ∀ t ∈ s.tasks, t.isFinished = true := by decide +kernel
  refine ⟨hfinished, by decide +kernel, ?_, ?_, ?_⟩
  · rw [honce.sent hfinished did]
    decide +kernel
  · rw [honce.cached hfinished]
    decide +kernel
  · exact (document_fetched_once ⟨"https", none⟩ [did, did] []).finishes schedule (fair_round 2 _)

end AuditTrail.Did
