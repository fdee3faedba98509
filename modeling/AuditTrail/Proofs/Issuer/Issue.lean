import AuditTrail.Issuer.Issue
import AuditTrail.Proofs.Issuer.Template
import AuditTrail.Proofs.Log.Chain
import Mathlib.Data.List.Forall2

/-!
# What a draft records

Each step that is recorded adds one entry: its action and the hash of its state, under the identity of the
draft. So the entries of a log go along with the steps it was made from (`records_record`), and the state
of the log is the one of the last step (`state_record`).
-/

namespace AuditTrail

open Signature (Scheme)

/-- An entry records a step: the action of the step, and the hash of its state under an instance id. -/
structure Records (id : String) (step : Step) (e : Entry) : Prop where
  action : e.action = ⟨step.kind, step.name, Draft.parametersOf step.parameters⟩
  stateHash : e.stateHash = canonicalHash (Template.instantiate id step.state)

namespace Draft

variable {scheme : Scheme}

/-- Records steps one after the other. -/
def record (scheme : Scheme) (d : Draft) (steps : List Step) : Draft := steps.foldl (push scheme) d

theorem records_push (d : Draft) (step : Step) :
    Records d.identity.protocolId.display step (d.signer.signEntry scheme (d.unsigned step)) :=
  ⟨rfl, rfl⟩

/-- **Each step has its entry.** -/
theorem records_record (scheme : Scheme) (d : Draft) (steps : List Step) : ∃ more,
    (d.record scheme steps).entries = d.entries ++ more
      ∧ List.Forall₂ (Records d.identity.protocolId.display) steps more := by
  induction steps generalizing d with
  | nil => exact ⟨[], (List.append_nil _).symm, .nil⟩
  | cons step rest ih =>
    -- Recording a step keeps the identity, so the later entries are under the same instance id.
    obtain ⟨more, hentries, hrecords⟩ := ih (d.push scheme step)
    refine ⟨d.signer.signEntry scheme (d.unsigned step) :: more, ?_,
      .cons (records_push d step) hrecords⟩
    show ((d.push scheme step).record scheme rest).entries = _
    rw [hentries]
    exact List.append_assoc _ [_] more

/-- The state is the one of the last step. -/
theorem state_record (scheme : Scheme) (d : Draft) {steps : List Step} (h : steps ≠ []) :
    (d.record scheme steps).state
      = Template.instantiate d.identity.protocolId.display (steps.getLast h).state := by
  induction steps generalizing d with
  | nil => exact absurd rfl h
  | cons step rest ih =>
    cases rest with
    | nil => rfl
    | cons next more => exact ih (d.push scheme step) (List.cons_ne_nil next more)

/-- The last entry has the hash of the state. -/
theorem stateHash_record (d : Draft) {steps : List Step} (h : steps ≠ []) {e : Entry}
    (hlast : (d.record scheme steps).entries.getLast? = some e) :
    canonicalHash (d.record scheme steps).state = e.stateHash := by
  induction steps generalizing d with
  | nil => exact absurd rfl h
  | cons step rest ih =>
    cases rest with
    | nil =>
      have hpush : (d.push scheme step).entries.getLast?
          = some (d.signer.signEntry scheme (d.unsigned step)) := List.getLast?_concat
      rw [← Option.some.inj (hpush.symm.trans hlast)]
      rfl
    | cons next more => exact ih (d.push scheme step) (List.cons_ne_nil next more) hlast

/-- The log of an instance that is constructed and then called. -/
def issued (scheme : Scheme) (signer : Signer) (identity : Identity) (parameters state : Json)
    (calls : List Step) : Log :=
  let d := start signer identity
  (d.record scheme (d.construction parameters state :: calls)).finish

/-- The first entry of an issued log has the first index. -/
theorem entries_issued (scheme : Scheme) (signer : Signer) (identity : Identity)
    (parameters state : Json) (calls : List Step) : ∃ first rest,
      (issued scheme signer identity parameters state calls).entries = first :: rest
        ∧ first.id = ({ identity with index := some 0 }).display
        ∧ List.Forall₂ (Records identity.protocolId.display)
          ((start signer identity).construction parameters state :: calls) (first :: rest) := by
  obtain ⟨more, hentries, hrecords⟩ := records_record scheme
    ((start signer identity).push scheme ((start signer identity).construction parameters state)) calls
  exact ⟨_, more, hentries, rfl, .cons (records_push (start signer identity) _) hrecords⟩

theorem state_issued (scheme : Scheme) (signer : Signer) (identity : Identity)
    (parameters state : Json) (calls : List Step) :
    (issued scheme signer identity parameters state calls).state
      = Template.instantiate identity.protocolId.display
        ((state :: calls.map Step.state).getLast (List.cons_ne_nil _ _)) := by
  have hstate := state_record scheme (start signer identity)
    (List.cons_ne_nil ((start signer identity).construction parameters state) calls)
  rw [← List.getLast_map (f := Step.state) (by simp)] at hstate
  exact hstate

/-- **An issued log passes the check of its state.** -/
theorem stateFindings_issued (scheme : Scheme) (signer : Signer) (identity : Identity)
    (parameters state : Json) (calls : List Step) :
    stateFindings (issued scheme signer identity parameters state calls) = [] :=
  stateFindings_eq_nil.mpr fun _ hlast => stateHash_record _ (List.cons_ne_nil _ calls) hlast

end Draft

end AuditTrail
