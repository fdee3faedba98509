import AuditTrail.Did.Interleaving
import Mathlib.Data.List.Nodup

/-!
# One slot among many calls

What the calls for one DID do is a matter of the slot of that DID. `Acts` says once what a single step
of such a call can be: which slot it finds and leaves, how far the call was and is, and what it sends or
receives. Everything else is read off these ten cases.

Seen from one DID (`View`), a step of the system is such a step of one of its calls or nothing at all
(`view_step`). The invariant of a view (`View.Sound`) says of the slot, the calls and the trace of the
DID how they belong together. The core of it is that one call at most holds the slot, and that what the
others know of the slot does not depend on it.
-/

namespace AuditTrail.Did

open Http (Request Reply)

/-! ## The cache -/

namespace Cache

theorem slot?_put (cache : Cache) (did : String) (slot : Slot) (d : String) :
    (cache.put did slot).slot? d = if d = did then some slot else cache.slot? d := by
  induction cache with
  | nil =>
    by_cases h : d = did
    · simp [put, slot?, h]
    · simp [put, slot?, h, List.lookup_cons, beq_eq_false_iff_ne.mpr h]
  | cons entry rest ih =>
    obtain ⟨name, found⟩ := entry
    unfold put
    unfold slot? at ih ⊢
    by_cases hname : name = did
    · by_cases h : d = did
      · simp [hname, h]
      · have hd : d ≠ name := fun heq => h (heq.trans hname)
        simp [hname, h, List.lookup_cons, beq_eq_false_iff_ne.mpr h]
    · rw [if_neg hname]
      by_cases hd : d = name
      · have h : d ≠ did := fun heq => hname (hd.symm.trans heq)
        simp [hd, hname]
      · rw [List.lookup_cons, List.lookup_cons, beq_eq_false_iff_ne.mpr hd, ih]

theorem slotOf_put (cache : Cache) (did : String) (slot : Slot) (d : String) :
    (cache.put did slot).slotOf d = if d = did then slot else cache.slotOf d := by
  unfold slotOf
  rw [slot?_put]
  split <;> rfl

/-- The DIDs that have a slot. -/
def dids (cache : Cache) : List String := cache.map Prod.fst

theorem mem_dids_put {cache : Cache} {did d : String} {slot : Slot}
    (h : d ∈ (cache.put did slot).dids) : d = did ∨ d ∈ cache.dids := by
  induction cache with
  | nil => simpa [put, dids] using h
  | cons entry rest ih =>
    obtain ⟨name, found⟩ := entry
    unfold put at h
    split at h
    · exact (List.mem_cons.mp h).imp_right (List.mem_cons_of_mem _)
    · rcases List.mem_cons.mp h with rfl | hrest
      · exact Or.inr List.mem_cons_self
      · exact (ih hrest).imp_right (List.mem_cons_of_mem _)

theorem nodup_dids_put {cache : Cache} (did : String) (slot : Slot) (h : cache.dids.Nodup) :
    (cache.put did slot).dids.Nodup := by
  induction cache with
  | nil => exact List.nodup_singleton _
  | cons entry rest ih =>
    obtain ⟨name, found⟩ := entry
    obtain ⟨hfresh, hrest⟩ := List.nodup_cons.mp h
    unfold put
    split
    · rename_i heq
      exact List.nodup_cons.mpr ⟨heq ▸ hfresh, hrest⟩
    · rename_i hne
      refine List.nodup_cons.mpr ⟨?_, ih hrest⟩
      intro hmem
      exact (mem_dids_put hmem).elim hne hfresh

/-- With one slot for each DID, what is in the cache is what is found there. -/
theorem slot?_eq_some {cache : Cache} (h : cache.dids.Nodup) {did : String} {slot : Slot} :
    cache.slot? did = some slot ↔ (did, slot) ∈ cache := by
  induction cache with
  | nil => simp [slot?]
  | cons entry rest ih =>
    obtain ⟨name, found⟩ := entry
    obtain ⟨hfresh, hrest⟩ := List.nodup_cons.mp h
    unfold slot? at ih ⊢
    rw [List.lookup_cons, List.mem_cons]
    by_cases hname : did = name
    · subst hname
      have hnot : (did, slot) ∉ rest := fun hmem =>
        hfresh (List.mem_map.mpr ⟨_, hmem, rfl⟩)
      simp [hnot, eq_comm]
    · rw [beq_eq_false_iff_ne.mpr hname]
      simp [ih hrest, hname]

end Cache

/-! ## What a call can do -/

/-- A step of a call for a DID: the slot and the call before it and after it, and what is sent or
received. -/
inductive Acts (settings : Settings) (did : String) : Slot → Task → Slot → Task → List Event → Prop
  | looksUp (slot : Slot) (pending : Bool) :
      Acts settings did slot ⟨⟨did, .started⟩, pending⟩ slot ⟨⟨did, .waiting⟩, false⟩ []
  | locks (slot : Slot) (pending : Bool) (hfree : slot.held = false) :
      Acts settings did slot ⟨⟨did, .waiting⟩, pending⟩ { slot with held := true }
        ⟨⟨did, .holding⟩, false⟩ []
  | finds (slot : Slot) (pending : Bool) (document : DidDocument)
      (hdocument : slot.document = some document) :
      Acts settings did slot ⟨⟨did, .holding⟩, pending⟩ slot ⟨⟨did, .releasing (.ok document)⟩, false⟩ []
  | misses (slot : Slot) (pending : Bool) (url : String) (hdocument : slot.document = none)
      (hlocation : location settings did = .ok url) :
      Acts settings did slot ⟨⟨did, .holding⟩, pending⟩ slot ⟨⟨did, .fetching url⟩, false⟩ []
  | fails (slot : Slot) (pending : Bool) (fault : LocationFault) (hdocument : slot.document = none)
      (hlocation : location settings did = .error fault) :
      Acts settings did slot ⟨⟨did, .holding⟩, pending⟩ slot
        ⟨⟨did, .releasing (.error (fault.failure did))⟩, false⟩ []
  | asks (slot : Slot) (url : String) :
      Acts settings did slot ⟨⟨did, .fetching url⟩, false⟩ slot ⟨⟨did, .fetching url⟩, true⟩
        [.sent did (Request.get url)]
  | receives (slot : Slot) (url : String) (reply : Reply) (document : DidDocument)
      (hreply : documentOf did url reply = .ok document) :
      Acts settings did slot ⟨⟨did, .fetching url⟩, true⟩ slot ⟨⟨did, .storing document⟩, false⟩
        [.received did (Request.get url) reply]
  | isRefused (slot : Slot) (url : String) (reply : Reply) (f : Failure)
      (hreply : documentOf did url reply = .error f) :
      Acts settings did slot ⟨⟨did, .fetching url⟩, true⟩ slot ⟨⟨did, .releasing (.error f)⟩, false⟩
        [.received did (Request.get url) reply]
  | stores (slot : Slot) (pending : Bool) (document : DidDocument) :
      Acts settings did slot ⟨⟨did, .storing document⟩, pending⟩
        { slot with document := some document } ⟨⟨did, .releasing (.ok document)⟩, false⟩ []
  | releases (slot : Slot) (pending : Bool) (result : Except Failure DidDocument) :
      Acts settings did slot ⟨⟨did, .releasing result⟩, pending⟩ { slot with held := false }
        ⟨⟨did, .finished result⟩, false⟩ []

/-- A step of a call that changes the cache is such a step, and changes the slot of its DID alone. -/
theorem acts_of_changes {settings : Settings} {cache cache' : Cache} {call call' : Call}
    (pending : Bool) (h : call.advance settings cache = some (.changes cache' call')) :
    ∃ slot, Acts settings call.did (cache.slotOf call.did) ⟨call, pending⟩ slot ⟨call', false⟩ []
      ∧ (cache' = cache.put call.did slot ∨ cache' = cache ∧ slot = cache.slotOf call.did) := by
  obtain ⟨did, progress⟩ := call
  unfold Call.advance at h
  cases progress with
  | started =>
    simp only [Option.some.injEq, Move.changes.injEq] at h
    obtain ⟨rfl, rfl⟩ := h
    exact ⟨_, .looksUp _ _, Or.inl rfl⟩
  | waiting =>
    simp only at h
    split at h
    · exact absurd h (by simp)
    · rename_i hfree
      simp only [Option.some.injEq, Move.changes.injEq] at h
      obtain ⟨rfl, rfl⟩ := h
      exact ⟨_, .locks _ _ (by simpa using hfree), Or.inl rfl⟩
  | holding =>
    simp only at h
    split at h
    · rename_i document hdocument
      simp only [Option.some.injEq, Move.changes.injEq] at h
      obtain ⟨rfl, rfl⟩ := h
      exact ⟨_, .finds _ _ _ hdocument, Or.inr ⟨rfl, rfl⟩⟩
    · rename_i hdocument
      split at h
      · rename_i url hlocation
        simp only [Option.some.injEq, Move.changes.injEq] at h
        obtain ⟨rfl, rfl⟩ := h
        exact ⟨_, .misses _ _ _ hdocument hlocation, Or.inr ⟨rfl, rfl⟩⟩
      · rename_i fault hlocation
        simp only [Option.some.injEq, Move.changes.injEq] at h
        obtain ⟨rfl, rfl⟩ := h
        exact ⟨_, .fails _ _ _ hdocument hlocation, Or.inr ⟨rfl, rfl⟩⟩
  | fetching url => simp at h
  | storing document =>
    simp only [Option.some.injEq, Move.changes.injEq] at h
    obtain ⟨rfl, rfl⟩ := h
    exact ⟨_, .stores _ _ _, Or.inl rfl⟩
  | releasing result =>
    simp only [Option.some.injEq, Move.changes.injEq] at h
    obtain ⟨rfl, rfl⟩ := h
    exact ⟨_, .releases _ _ _, Or.inl rfl⟩
  | finished result => simp at h

/-- A call that asks is one that fetches. -/
theorem acts_of_asks {settings : Settings} {cache : Cache} {call : Call} {request : Request}
    {next : Reply → Call} (h : call.advance settings cache = some (.asks request next)) (slot : Slot) :
    Acts settings call.did slot ⟨call, false⟩ slot ⟨call, true⟩ [.sent call.did request]
      ∧ ∀ reply, Acts settings call.did slot ⟨call, true⟩ slot ⟨next reply, false⟩
        [.received call.did request reply] := by
  obtain ⟨did, progress⟩ := call
  unfold Call.advance at h
  cases progress with
  | started => simp at h
  | waiting =>
    simp only at h
    split at h <;> simp at h
  | holding =>
    simp only at h
    split at h
    · simp at h
    · split at h <;> simp at h
  | fetching url =>
    simp only [Option.some.injEq, Move.asks.injEq] at h
    obtain ⟨rfl, rfl⟩ := h
    refine ⟨.asks slot url, fun reply => ?_⟩
    cases hreply : documentOf did url reply with
    | ok document =>
      simp only [hreply]
      exact .receives slot url reply document hreply
    | error f =>
      simp only [hreply]
      exact .isRefused slot url reply f hreply
  | storing document => simp at h
  | releasing result => simp at h
  | finished result => simp at h

/-- A call that is not finished and cannot go on waits for its slot. -/
theorem held_of_advance {settings : Settings} {cache : Cache} {t : Task}
    (h : t.call.advance settings cache = none) (hopen : t.isFinished = false) :
    (cache.slotOf t.call.did).held = true := by
  obtain ⟨⟨did, progress⟩, pending⟩ := t
  unfold Call.advance at h
  cases progress with
  | waiting => simpa using h
  | holding =>
    simp only at h
    split at h
    · simp at h
    · split at h <;> simp at h
  | finished result => simp [Task.isFinished] at hopen
  | _ => simp at h

/-- A call that holds its slot can go on. -/
theorem advance_of_holds {settings : Settings} {t : Task} (h : t.holds = true) (cache : Cache) :
    (t.call.advance settings cache).isSome = true := by
  obtain ⟨⟨did, progress⟩, pending⟩ := t
  unfold Call.advance
  cases progress with
  | holding =>
    simp only
    split
    · rfl
    · split <;> rfl
  | started => simp [Task.holds] at h
  | waiting => simp [Task.holds] at h
  | finished result => simp [Task.holds] at h
  | _ => rfl

/-- How many steps a call has left at most. The request and the reply are two. -/
def Task.stepsLeft (t : Task) : Nat :=
  match t.call.progress with
  | .started => 7
  | .waiting => 6
  | .holding => 5
  | .fetching _ => if t.pending then 3 else 4
  | .storing _ => 2
  | .releasing _ => 1
  | .finished _ => 0

/-! ## Facts about one step -/

namespace Acts

variable {settings : Settings} {did : String} {slot slot' : Slot} {t t' : Task} {events : List Event}

theorem did_eq (h : Acts settings did slot t slot' t' events) :
    t.call.did = did ∧ t'.call.did = did ∧ ∀ e ∈ events, e.did = did := by
  cases h <;> simp [Event.did]

/-- A step takes the slot, gives it back, or leaves it with whom it is. -/
theorem held_eq (h : Acts settings did slot t slot' t' events)
    (hheld : t.holds = true → slot.held = true) :
    slot.held.toNat + t'.holds.toNat = slot'.held.toNat + t.holds.toNat := by
  cases h with
  | locks pending hfree => simp [Task.holds, hfree]
  | releases pending result => simp [Task.holds, hheld rfl]
  | _ => simp [Task.holds]

/-- No step is taken twice. -/
theorem stepsLeft_lt (h : Acts settings did slot t slot' t' events) : t'.stepsLeft < t.stepsLeft := by
  cases h <;> simp [Task.stepsLeft]

/-- Nothing but a look at the slot is done with a slot that another call holds. -/
theorem exclusive (h : Acts settings did slot t slot' t' events) :
    slot' = slot ∧ events = [] ∨ t.holds = true ∨ slot.held = false := by
  cases h with
  | looksUp pending => exact Or.inl ⟨rfl, rfl⟩
  | locks pending hfree => exact Or.inr (Or.inr hfree)
  | _ => exact Or.inr (Or.inl rfl)

end Acts

/-! ## What is known of a call -/

/-- How a call stands to the slot of its DID and to the documents received for it so far: a call that
holds the slot knows what is in it, and a call that returned a document returned the one received. -/
def Fits (settings : Settings) (did : String) (slot : Slot) (found : List DidDocument) (t : Task) : Prop :=
  (t.pending = true → t.fetches = true) ∧
    match t.call.progress with
    | .started | .waiting | .finished (.error _) => True
    | .holding => slot.document = found.head?
    | .fetching url => location settings did = .ok url ∧ slot.document = none ∧ found = []
    | .storing document => found = [document]
    | .releasing (.ok document) => slot.document = some document ∧ found = [document]
    | .releasing (.error _) => slot.document = none ∧ found = []
    | .finished (.ok document) => found = [document]

/-- Whether the call has a document, or returned one. -/
def Task.succeeds (t : Task) : Bool :=
  match t.call.progress with
  | .storing _ | .releasing (.ok _) | .finished (.ok _) => true
  | _ => false

/-- Whether the call has sent a request that has no document for an answer, or none yet. -/
def Task.inVain (t : Task) : Bool :=
  match t.call.progress with
  | .fetching _ => t.pending
  | .releasing (.error _) | .finished (.error _) => true
  | _ => false

section

variable {settings : Settings} {did : String} {slot slot' : Slot} {t t' : Task} {events : List Event}
  {found : List DidDocument}

/-- What is known of a call that does not hold the slot does not depend on the slot. -/
theorem Fits.of_not_holds (h : Fits settings did slot found t) (hholds : t.holds = false)
    {found' : List DidDocument} (hfound : found' = found ∨ found = []) :
    Fits settings did slot' found' t := by
  obtain ⟨⟨d, progress⟩, pending⟩ := t
  refine ⟨h.1, ?_⟩
  have hknown := h.2
  cases progress with
  | finished result =>
    cases result with
    | error f => trivial
    | ok document =>
      rcases hfound with rfl | rfl
      · exact hknown
      · exact absurd hknown (by simp)
  | started => trivial
  | waiting => trivial
  | holding => simp [Task.holds] at hholds
  | fetching url => simp [Task.holds] at hholds
  | storing document => simp [Task.holds] at hholds
  | releasing result => simp [Task.holds] at hholds

theorem documents_append (before after : List Event) :
    documents (before ++ after) = documents before ++ documents after := List.filterMap_append

namespace Acts

/-- A call that takes a step stands to the slot as before. A slot that nobody holds has the document that
was received, if one was. -/
theorem fits (h : Acts settings did slot t slot' t' events) (ht : Fits settings did slot found t)
    (hfree : slot.held = false → slot.document = found.head?) (honce : found.length ≤ 1) :
    Fits settings did slot' (found ++ documents events) t' := by
  cases h with
  | looksUp pending => exact ⟨by simp, trivial⟩
  | locks pending hfree' =>
    refine ⟨by simp, ?_⟩
    simpa [documents] using hfree hfree'
  | finds pending document hdocument =>
    have hhead : found.head? = some document := by rw [← hdocument]; exact ht.2.symm
    refine ⟨by simp, hdocument, ?_⟩
    -- One document at most was received, so it is the one that was found.
    cases found with
    | nil => simp at hhead
    | cons first rest =>
      obtain rfl : rest = [] := List.length_eq_zero_iff.mp (by simpa using honce)
      simpa [documents] using hhead
  | misses pending url hdocument hlocation =>
    have hhead : found.head? = none := by rw [← hdocument]; exact ht.2.symm
    exact ⟨by simp, hlocation, hdocument, by simpa [documents] using hhead⟩
  | fails pending fault hdocument hlocation =>
    have hhead : found.head? = none := by rw [← hdocument]; exact ht.2.symm
    exact ⟨by simp, hdocument, by simpa [documents] using hhead⟩
  | asks url => exact ⟨fun _ => rfl, by simpa [documents, Event.document?] using ht.2⟩
  | receives url reply document hreply =>
    obtain ⟨_, _, rfl⟩ := ht.2
    refine ⟨by simp, ?_⟩
    simp [documents, Event.document?, Request.get, hreply, Except.toOption]
  | isRefused url reply f hreply =>
    obtain ⟨_, hdocument, rfl⟩ := ht.2
    refine ⟨by simp, hdocument, ?_⟩
    simp [documents, Event.document?, Request.get, hreply, Except.toOption]
  | stores pending document =>
    have hfound : found = [document] := ht.2
    exact ⟨by simp, rfl, by simpa [documents] using hfound⟩
  | releases pending result =>
    cases result with
    | ok document => exact ⟨by simp, by simpa [documents] using ht.2.2⟩
    | error f => exact ⟨by simp, trivial⟩

/-- Only where nothing was received before is something asked for or received. -/
theorem found_eq_nil (h : Acts settings did slot t slot' t' events)
    (ht : Fits settings did slot found t) (hevents : events ≠ []) : found = [] := by
  cases h with
  | asks url => exact ht.2.2.2
  | receives url reply document hreply => exact ht.2.2.2
  | isRefused url reply f hreply => exact ht.2.2.2
  | _ => exact absurd rfl hevents

/-- What is asked for is the document at the location of the DID. -/
theorem request_eq (h : Acts settings did slot t slot' t' events)
    (ht : Fits settings did slot found t) :
    ∀ e ∈ events, ∃ url, location settings did = .ok url ∧ e.request = Request.get url := by
  cases h with
  | asks url =>
    intro e he
    exact ⟨url, ht.2.1, by rw [List.mem_singleton.mp he]; rfl⟩
  | receives url reply document hreply =>
    intro e he
    exact ⟨url, ht.2.1, by rw [List.mem_singleton.mp he]; rfl⟩
  | isRefused url reply f hreply =>
    intro e he
    exact ⟨url, ht.2.1, by rw [List.mem_singleton.mp he]; rfl⟩
  | _ => simp

/-- A slot that is given back has the document that was received, if one was. -/
theorem document_of_free (h : Acts settings did slot t slot' t' events)
    (ht : Fits settings did slot found t) (hheld : t.holds = true → slot.held = true)
    (hfree : slot.held = false → slot.document = found.head?) (hfree' : slot'.held = false) :
    slot'.document = (found ++ documents events).head? := by
  cases h with
  | looksUp pending => simpa [documents] using hfree hfree'
  | releases pending result =>
    cases result with
    | ok document => simp [ht.2.1, ht.2.2]
    | error f => simp [ht.2.1, ht.2.2, documents]
  | locks pending hslot => exact absurd hfree' (by simp)
  | _ => exact absurd (hheld rfl) (by simpa using hfree')

/-- A call that comes to return an error gives the slot back without a document. -/
theorem slot_of_error (h : Acts settings did slot t slot' t' events)
    (ht : Fits settings did slot found t) {f : Failure}
    (hresult : t'.call.progress = .finished (.error f)) : slot' = ⟨none, false⟩ := by
  cases h with
  | releases pending result =>
    obtain rfl : result = .error f := Progress.finished.inj hresult
    simp [ht.2.1]
  | _ => exact absurd hresult (by simp)

theorem length_events_le (h : Acts settings did slot t slot' t' events) : events.length ≤ 1 := by
  cases h <;> simp

/-- A call that has a document keeps it, and so does one that receives it. -/
theorem succeeds (h : Acts settings did slot t slot' t' events)
    (hdocument : t.succeeds = true ∨ documents events ≠ []) : t'.succeeds = true := by
  cases h with
  | releases pending result => cases result <;> simp_all [Task.succeeds, documents]
  | _ => simp_all [Task.succeeds, documents, Event.document?, Request.get, Except.toOption]

/-- Each request is accounted for: by the call that waits for the reply, then by the document or by the
call that got none. -/
theorem sent_eq (h : Acts settings did slot t slot' t' events) {url : String}
    (hlocation : location settings did = .ok url) :
    events.countP Event.isSent + t.inVain.toNat = t'.inVain.toNat + (documents events).length := by
  cases h with
  | fails pending fault hdocument hfault => simp [hlocation] at hfault
  | receives url reply document hreply =>
    simp [Task.inVain, documents, Event.document?, Event.isSent, Request.get, hreply, Except.toOption]
  | isRefused url reply f hreply =>
    simp [Task.inVain, documents, Event.document?, Event.isSent, Request.get, hreply, Except.toOption]
  | releases pending result => cases result <;> simp [Task.inVain, documents]
  | _ => simp [Task.inVain, documents, Event.document?, Event.isSent]

end Acts

end

/-! ## Seen from one DID -/

/-- What concerns one DID: its slot, the calls for it, and what they have sent and received. -/
structure View where
  slot : Slot
  tasks : List Task
  trace : List Event

/-- One of the calls takes a step. -/
inductive View.Step (settings : Settings) (did : String) : View → View → Prop
  | acts {slot slot' : Slot} {t t' : Task} {events : List Event} (before after : List Task)
      (trace : List Event) (h : Acts settings did slot t slot' t' events) :
      View.Step settings did ⟨slot, before ++ t :: after, trace⟩
        ⟨slot', before ++ t' :: after, trace ++ events⟩

/-- How the slot of a DID, the calls for it and their trace belong together. -/
structure View.Sound (settings : Settings) (did : String) (v : View) : Prop where
  /-- The slot is held by one call, or by none and then not held. -/
  held : v.tasks.countP Task.holds = v.slot.held.toNat
  tasks : ∀ t ∈ v.tasks, Fits settings did v.slot (documents v.trace) t
  free : v.slot.held = false → v.slot.document = (documents v.trace).head?
  once : (documents v.trace).length ≤ 1
  owner : documents v.trace ≠ [] → ∃ t ∈ v.tasks, t.succeeds = true
  /-- Nothing is sent after a document was received. -/
  silent : v.trace.Pairwise fun e e' => e.document?.isSome = true → e'.isSent = false
  requests : ∀ e ∈ v.trace, ∃ url, location settings did = .ok url ∧ e.request = Request.get url
  sent : ∀ url, location settings did = .ok url →
    v.trace.countP Event.isSent = v.tasks.countP Task.inVain + (documents v.trace).length

theorem countP_middle {α : Type} (p : α → Bool) (before after : List α) (a : α) :
    (before ++ a :: after).countP p = (before ++ after).countP p + (p a).toNat := by
  rw [List.perm_middle.countP_eq p, List.countP_cons]
  cases p a <;> rfl

theorem mem_middle {α : Type} {before after : List α} {a b : α} :
    b ∈ before ++ a :: after ↔ b = a ∨ b ∈ before ++ after := by
  rw [List.perm_middle.mem_iff, List.mem_cons]

/-- **Whatever a call does, slot, calls and trace go on belonging together.** -/
theorem View.Step.sound {settings : Settings} {did : String} {v v' : View}
    (h : View.Step settings did v v') (hv : v.Sound settings did) : v'.Sound settings did := by
  obtain ⟨before, after, trace, hacts⟩ := h
  rename_i slot slot' t t' events
  have hcount : (before ++ after).countP Task.holds + t.holds.toNat = slot.held.toNat := by
    rw [← countP_middle]
    exact hv.held
  have hheld : t.holds = true → slot.held = true := by
    intro hholds
    cases hslot : slot.held with
    | true => rfl
    | false => simp [hholds, hslot] at hcount
  have ht : Fits settings did slot (documents trace) t := hv.tasks t (mem_middle.mpr (Or.inl rfl))
  have hothers : ∀ u ∈ before ++ after, Fits settings did slot' (documents (trace ++ events)) u := by
    intro u hu
    have hfits : Fits settings did slot (documents trace) u := hv.tasks u (mem_middle.mpr (Or.inr hu))
    rw [documents_append]
    rcases hacts.exclusive with ⟨rfl, rfl⟩ | hexclusive
    · simpa [documents] using hfits
    · -- The call that moves holds the slot or nobody does, so this one does not.
      have hzero : (before ++ after).countP Task.holds = 0 := by
        rcases hexclusive with hholds | hfree
        · rw [hholds, hheld hholds] at hcount
          exact Nat.succ.inj hcount
        · rw [hfree] at hcount
          exact (Nat.add_eq_zero_iff.mp hcount).1
      refine hfits.of_not_holds (by simpa using List.countP_eq_zero.mp hzero u hu) ?_
      by_cases hevents : events = []
      · simp [hevents, documents]
      · exact Or.inr (hacts.found_eq_nil ht hevents)
  have ht' : Fits settings did slot' (documents (trace ++ events)) t' := by
    rw [documents_append]
    exact hacts.fits ht hv.free hv.once
  refine ⟨?_, ?_, ?_, ?_, ?_, ?_, ?_, ?_⟩
  · have hmoved := hacts.held_eq hheld
    show (before ++ t' :: after).countP Task.holds = slot'.held.toNat
    rw [countP_middle]
    omega
  · intro u hu
    rcases mem_middle.mp hu with rfl | hu
    · exact ht'
    · exact hothers u hu
  · intro hfree
    show slot'.document = (documents (trace ++ events)).head?
    rw [documents_append]
    exact hacts.document_of_free ht hheld hv.free hfree
  · show (documents (trace ++ events)).length ≤ 1
    rw [documents_append, List.length_append]
    by_cases hevents : events = []
    · simpa [hevents, documents] using hv.once
    · rw [hacts.found_eq_nil ht hevents]
      have hdocuments : (documents events).length ≤ events.length := List.length_filterMap_le _ _
      have hevents := hacts.length_events_le
      simp only [List.length_nil]
      omega
  · intro hfound
    show ∃ u ∈ before ++ t' :: after, u.succeeds = true
    by_cases hevents : documents events = []
    · have hbefore : documents trace ≠ [] := by
        intro hnil
        exact hfound (by rw [documents_append, hnil, hevents]; rfl)
      obtain ⟨u, hu, hsucceeds⟩ := hv.owner hbefore
      rcases mem_middle.mp hu with rfl | hu
      · exact ⟨t', mem_middle.mpr (Or.inl rfl), hacts.succeeds (Or.inl hsucceeds)⟩
      · exact ⟨u, mem_middle.mpr (Or.inr hu), hsucceeds⟩
    · exact ⟨t', mem_middle.mpr (Or.inl rfl), hacts.succeeds (Or.inr hevents)⟩
  · refine List.pairwise_append.mpr ⟨hv.silent, ?_, ?_⟩
    · cases events with
      | nil => exact List.Pairwise.nil
      | cons first rest =>
        obtain rfl : rest = [] := List.length_eq_zero_iff.mp (by simpa using hacts.length_events_le)
        exact List.pairwise_singleton _ _
    · intro e he e' he' hdocument
      -- Something happens, so nothing was received before.
      have hnil := hacts.found_eq_nil ht (List.ne_nil_of_mem he')
      exact absurd (List.filterMap_eq_nil_iff.mp hnil e he) (Option.isSome_iff_ne_none.mp hdocument)
  · intro e he
    rcases List.mem_append.mp he with he | he
    · exact hv.requests e he
    · exact hacts.request_eq ht e he
  · intro url hlocation
    have hbefore := hv.sent url hlocation
    have hmoved := hacts.sent_eq hlocation
    show (trace ++ events).countP Event.isSent
      = (before ++ t' :: after).countP Task.inVain + (documents (trace ++ events)).length
    change trace.countP Event.isSent
      = (before ++ t :: after).countP Task.inVain + (documents trace).length at hbefore
    rw [countP_middle] at hbefore ⊢
    rw [List.countP_append, documents_append, List.length_append]
    omega

end AuditTrail.Did
