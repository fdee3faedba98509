import AuditTrail.Proofs.Issuer.Issue
import AuditTrail.Proofs.Issuer.Signer
import AuditTrail.Proofs.Log.Structure
import AuditTrail.Proofs.Log.Wire
import AuditTrail.Proofs.Signature.Binding

/-!
# Issued logs pass

Issuing and checking are two ways through the same formats, and neither looks at the other. A draft keeps
its links, its proofs and its texts in order with every step (`Sound`), so a log that was issued in any row of
steps has no findings in the checks that need no runtime.

> This is still so after the log was written and read back (`passes_record`): the text of a log says
> everything that its hashes and proofs speak of.
-/

namespace AuditTrail

open Signature (Scheme Resolver Accepts Attested proofFindings proofFindings_eq_nil accepts_iff)

/-- A signer whose document can be found, and whose key makes good signatures. -/
structure Signer.Published (scheme : Scheme) (answer : String → Except Failure DidDocument) (s : Signer) :
    Prop where
  agrees : scheme.Agrees s.seed
  did : s.did ≠ ""
  noFragment : '#' ∉ s.did.toList
  keyId : s.keyId ≠ ""
  document : answer s.did = .ok (s.document scheme)

/-- A log without findings in the checks that need no runtime. -/
structure Log.Passes {σ : Type} (scheme : Scheme) (resolve : Resolver (StateM σ)) (log : Log) : Prop where
  shape : structureFindings log = []
  chain : chainFindings log.entries = []
  stateHash : stateFindings log = []
  proofs : ∀ failFast s, (proofFindings scheme resolve failFast log.entries s).1 = []

/-! ## Texts that are never blank -/

/-- A text that has something to show. -/
def Shows (text : String) : Prop := ∃ c ∈ text.toList, c ∉ Text.schemaBlank

theorem Identity.shows_display (i : Identity) : Shows i.display := by
  refine ⟨'u', ?_, by decide⟩
  simp [Identity.display, Identity.urn]

theorem Timestamp.shows_ofSeconds (seconds : Nat) : Shows (Timestamp.ofSeconds seconds) := by
  refine ⟨'Z', ?_, by decide⟩
  unfold Timestamp.ofSeconds
  rw [String.toList_append]
  exact List.mem_append_right _ (by decide)

theorem shows_canonicalHash (v : Json) : Shows (canonicalHash v) := by
  refine ⟨'s', ?_, by decide⟩
  simp [canonicalHash, textHash, hashScheme]

theorem Signer.shows_methodId (s : Signer) : Shows s.methodId := by
  refine ⟨'#', ?_, by decide⟩
  simp [Signer.methodId]

theorem Signature.Jws.shows_text (j : Signature.Jws) : Shows j.text := by
  refine ⟨'.', ?_, by decide⟩
  simp [Signature.Jws.text]

/-! ## Drafts -/

namespace Draft

/-- What every step of a draft keeps: its entries are linked, attested, and show something where they have
to. -/
structure Sound (scheme : Scheme) (answer : String → Except Failure DidDocument) (d : Draft) : Prop where
  linked : Linked none d.entries
  attested : ∀ e ∈ d.entries, Attested scheme answer e
  shows : ∀ e ∈ d.entries, ∀ text ∈ e.requiredTexts, Shows text

section

variable {scheme : Scheme} {answer : String → Except Failure DidDocument} {d : Draft} {steps : List Step}

theorem sound_start (signer : Signer) (identity : Identity) :
    (start signer identity).Sound scheme answer := ⟨trivial, nofun, nofun⟩

theorem shows_signEntry {step : Step} (hname : Text.isBlank step.name = false) :
    ∀ text ∈ (d.signer.signEntry scheme (d.unsigned step)).requiredTexts, Shows text := by
  simp only [Entry.requiredTexts, List.forall_mem_cons]
  exact ⟨Identity.shows_display _, Timestamp.shows_ofSeconds _, Text.isBlank_eq_false.mp hname,
    shows_canonicalHash _, d.signer.shows_methodId, Signature.Jws.shows_text _, List.forall_mem_nil _⟩

/-- **A step keeps a draft sound.** Its entry is linked before it is signed, and the link is part of what is
signed. -/
theorem Sound.push (h : d.Sound scheme answer) (hsigner : d.signer.Published scheme answer) {step : Step}
    (hname : Text.isBlank step.name = false) : (d.push scheme step).Sound scheme answer where
  linked := by
    refine linked_concat.mpr ⟨h.linked, ?_⟩
    show d.entries.getLast?.map Entry.hash = _
    rw [Option.or_none]
  attested := by
    refine List.forall_mem_append.mpr ⟨h.attested, List.forall_mem_singleton.mpr ?_⟩
    exact Signer.attested_signEntry hsigner.agrees hsigner.did hsigner.noFragment hsigner.keyId
      hsigner.document _
  shows := List.forall_mem_append.mpr ⟨h.shows, List.forall_mem_singleton.mpr (shows_signEntry hname)⟩

/-- And so do all steps, one after the other. -/
theorem Sound.record (h : d.Sound scheme answer) (hsigner : d.signer.Published scheme answer)
    (hnames : ∀ step ∈ steps, Text.isBlank step.name = false) :
    (d.record scheme steps).Sound scheme answer := by
  induction steps generalizing d with
  | nil => exact h
  | cons step rest ih =>
    obtain ⟨hname, hrest⟩ := List.forall_mem_cons.mp hnames
    exact ih (h.push hsigner hname) hsigner hrest

/-! ## Values -/

/-- What was recorded are values that can be read from a text. -/
structure Readable (d : Draft) : Prop where
  entries : ∀ e ∈ d.entries, e.WellFormed
  state : d.state.WellFormed

theorem readable_start (signer : Signer) (identity : Identity) : (start signer identity).Readable :=
  ⟨nofun, wellFormed_noMembers⟩

theorem wellFormed_parametersOf {v : Json} (h : v.WellFormed) :
    Json.WellFormed (.object (parametersOf v)) := by
  cases v with
  | object members => exact h
  | _ => exact wellFormed_noMembers

theorem Readable.push (h : d.Readable) {step : Step} (hparameters : step.parameters.WellFormed)
    (hstate : step.state.WellFormed) : (d.push scheme step).Readable where
  entries := List.forall_mem_append.mpr ⟨h.entries,
    List.forall_mem_singleton.mpr (wellFormed_parametersOf hparameters)⟩
  state := Template.wellFormed_instantiate hstate

theorem Readable.record (h : d.Readable)
    (hvalues : ∀ step ∈ steps, step.parameters.WellFormed ∧ step.state.WellFormed) :
    (d.record scheme steps).Readable := by
  induction steps generalizing d with
  | nil => exact h
  | cons step rest ih =>
    obtain ⟨⟨hparameters, hstate⟩, hrest⟩ := List.forall_mem_cons.mp hvalues
    exact ih (h.push hparameters hstate) hrest

end

end Draft

/-! ## Issued logs -/

theorem Template.isObject_instantiate (id : String) (v : Json) :
    (Template.instantiate id v).isObject = v.isObject := by
  cases v <;> rfl

theorem Draft.entries_record_ne_nil {scheme : Scheme} {d : Draft} {steps : List Step} (h : steps ≠ []) :
    (d.record scheme steps).entries ≠ [] := by
  obtain ⟨more, hentries, hrecords⟩ := Draft.records_record scheme d steps
  intro hnil
  rw [hentries, List.append_eq_nil_iff] at hnil
  obtain ⟨_, rfl⟩ := hnil
  cases hrecords
  exact h rfl

section

variable {σ : Type} {scheme : Scheme} {resolve : Resolver (StateM σ)}
  {answer : String → Except Failure DidDocument}

/-- A log that was issued has no findings, and all its proofs are accepted. -/
theorem findings_record {signer : Signer} (hsigner : signer.Published scheme answer) (identity : Identity)
    {steps : List Step} (hsteps : steps ≠ []) (hnames : ∀ step ∈ steps, Text.isBlank step.name = false)
    (hstate : (steps.getLast hsteps).state.isObject = true) :
    let log := ((Draft.start signer identity).record scheme steps).finish
    structureFindings log = [] ∧ chainFindings log.entries = [] ∧ stateFindings log = []
      ∧ ∀ e ∈ log.entries, Accepts scheme answer e := by
  intro log
  have hsound := (Draft.sound_start signer identity).record hsigner hnames
  refine ⟨structureFindings_eq_nil.mpr ⟨Draft.entries_record_ne_nil hsteps, ?_, hsound.shows⟩,
    chainFindings_eq_nil.mpr hsound.linked,
    stateFindings_eq_nil.mpr fun e hlast => Draft.stateHash_record _ hsteps hlast,
    fun e he => accepts_iff.mpr (hsound.attested e he)⟩
  show ((Draft.start signer identity).record scheme steps).state.isObject = true
  rw [Draft.state_record scheme _ hsteps, Template.isObject_instantiate, hstate]

/-- **What is issued passes.** Steps of any kinds, in any order, make a log without findings, and the log
that is read from its text is the same. -/
theorem passes_record (hanswer : ∀ did s, (resolve did s).1 = answer did) {signer : Signer}
    (hsigner : signer.Published scheme answer) (identity : Identity) {steps : List Step}
    (hsteps : steps ≠ []) (hnames : ∀ step ∈ steps, Text.isBlank step.name = false)
    (hstate : (steps.getLast hsteps).state.isObject = true) :
    let log := ((Draft.start signer identity).record scheme steps).finish
    log.Passes scheme resolve
      ∧ ((∀ step ∈ steps, step.parameters.WellFormed ∧ step.state.WellFormed) →
        log.tree.depth ≤ Json.Tree.maxDepth → ∀ source, ∃ received,
          Log.parse source log.wire = .ok received ∧ received = log ∧ received.Passes scheme resolve) := by
  intro log
  obtain ⟨hshape, hchain, hstateHash, hproofs⟩ := findings_record hsigner identity hsteps hnames hstate
  have hpasses : log.Passes scheme resolve :=
    ⟨hshape, hchain, hstateHash, fun failFast s => (proofFindings_eq_nil hanswer failFast).mpr hproofs⟩
  refine ⟨hpasses, fun hvalues hdepth source => ?_⟩
  -- What was read is the log itself, so all that is left to show is that it can be read.
  have hreadable : ((Draft.start signer identity).record scheme steps).Readable :=
    (Draft.readable_start signer identity).record hvalues
  exact ⟨log, Log.parse_wire ⟨hreadable.entries, hreadable.state⟩ hdepth source, rfl, hpasses⟩

end

/-- The steps of the example. -/
def Sample.steps : List Step :=
  [(Draft.start .issuer Draft.exampleIdentity).construction (.ofMembers [("forAmount", .ofNat 100)])
      (stateOf openActions 0),
    ⟨some .permission, "pay", .ofMembers [("amount", .ofNat 40)], stateOf openActions 40⟩,
    ⟨some .permission, "forgive", .object [], stateOf [] 100⟩]

theorem Sample.wellFormed_stateOf {actions : List (String × Json)} (hactions : ∀ m ∈ actions, m.2.WellFormed)
    {paid : Nat} (hpaid : (Json.ofNat paid).WellFormed) : (stateOf actions paid).WellFormed := by
  refine Json.wellFormed_ofMembers ?_
  simp only [List.forall_mem_cons]
  refine ⟨trivial, Json.wellFormed_ofMembers ?_, Json.wellFormed_ofMembers hactions, rfl, hpaid,
    List.forall_mem_nil _⟩
  simp only [List.forall_mem_cons]
  exact ⟨wellFormed_noMembers, wellFormed_noMembers, List.forall_mem_nil _⟩

theorem Sample.published : Signer.issuer.Published Signature.openScheme
    fun _ => .ok (Signer.issuer.document Signature.openScheme) :=
  ⟨Signature.openScheme_agrees _, by decide, by decide, by decide, rfl⟩

theorem Sample.steps_ne_nil : steps ≠ [] := by decide

theorem Sample.names : ∀ step ∈ steps, Text.isBlank step.name = false := by decide

theorem Sample.log_eq (scheme : Scheme) : log scheme
    = ((Draft.start .issuer Draft.exampleIdentity).record scheme steps).finish := rfl

/-- The example has no findings, and all its proofs are accepted. -/
theorem Sample.findings_log : let log := Sample.log Signature.openScheme
    structureFindings log = [] ∧ chainFindings log.entries = [] ∧ stateFindings log = []
      ∧ ∀ e ∈ log.entries, Accepts Signature.openScheme
        (fun _ => .ok (Signer.issuer.document Signature.openScheme)) e := by
  intro log
  rw [show log = _ from Sample.log_eq Signature.openScheme]
  exact findings_record Sample.published Draft.exampleIdentity Sample.steps_ne_nil Sample.names rfl

/-- The example passes, before and after it was sent. -/
theorem sample_passes :
    let log := Sample.log Signature.openScheme
    let resolve : Resolver (StateM Nat) := fun _ asked =>
      (.ok (Signer.issuer.document Signature.openScheme), asked + 1)
    log.Passes Signature.openScheme resolve
      ∧ ∃ received, Log.parse "mail" log.wire = .ok received ∧ received = log
        ∧ received.Passes Signature.openScheme resolve := by
  intro log resolve
  have hactions : ∀ m ∈ Sample.openActions, m.2.WellFormed := List.forall_mem_singleton.mpr trivial
  have hvalues : ∀ step ∈ Sample.steps, step.parameters.WellFormed ∧ step.state.WellFormed := by
    simp only [Sample.steps, List.forall_mem_cons]
    refine ⟨⟨Json.wellFormed_ofMembers (List.forall_mem_singleton.mpr rfl),
      Sample.wellFormed_stateOf hactions rfl⟩, ⟨Json.wellFormed_ofMembers (List.forall_mem_singleton.mpr rfl),
      Sample.wellFormed_stateOf hactions rfl⟩, ⟨wellFormed_noMembers,
      Sample.wellFormed_stateOf (List.forall_mem_nil _) rfl⟩, List.forall_mem_nil _⟩
  have hissued := @passes_record Nat Signature.openScheme resolve _ (fun _ _ => rfl) Signer.issuer
    Sample.published Draft.exampleIdentity Sample.steps Sample.steps_ne_nil Sample.names rfl
  exact ⟨hissued.1, hissued.2 hvalues (by decide +kernel) "mail"⟩

end AuditTrail
