import AuditTrail.Signature.Check

/-!
# Proofs without findings

A resolver may keep a state of its own, a cache for example. If its answers depend on the DID alone,
then so does the check of an entry (`checkEntry_eq`), and the signature stage reports nothing exactly
if every entry passes, whether or not it stops at the first failure (`proofFindings_eq_nil`).
-/

namespace AuditTrail

section

variable {σ α β : Type}

theorem bind_run (x : StateM σ α) (f : α → StateM σ β) (s : σ) :
    (x >>= f) s = f (x s).1 (x s).2 := rfl

theorem pure_run (a : α) (s : σ) : (pure a : StateM σ α) s = (a, s) := rfl

end

namespace Signature

/-- Whether the check of an entry accepts it, where the documents of DIDs are known beforehand. -/
def Accepts (scheme : Scheme) (answer : String → Except Failure DidDocument) (e : Entry) : Prop :=
  Id.run (checkEntry scheme (fun did => pure (answer did)) e) = .ok ()

section

variable {σ : Type} {scheme : Scheme} {resolve : Resolver (StateM σ)}
  {answer : String → Except Failure DidDocument}

/-- The check of an entry sees the answer of the resolver and not its state. -/
theorem checkEntry_eq (hanswer : ∀ did s, (resolve did s).1 = answer did) (e : Entry) (s : σ) :
    (checkEntry scheme resolve e s).1
      = Id.run (checkEntry scheme (fun did => pure (answer did)) e) := by
  unfold checkEntry
  cases didOf e.proof.verificationMethod with
  | error fault => rfl
  | ok did =>
    have hfound := hanswer did s
    dsimp only
    rw [bind_run, hfound]
    cases answer did with
    | error f => rfl
    | ok document => rfl

theorem proofFindingsFrom_eq_nil (hanswer : ∀ did s, (resolve did s).1 = answer did)
    (failFast : Bool) {entries : List Entry} {index : Nat} {s : σ} :
    (proofFindingsFrom scheme resolve failFast index entries s).1 = []
      ↔ ∀ e ∈ entries, Accepts scheme answer e := by
  induction entries generalizing index s with
  | nil => simp [proofFindingsFrom, pure_run]
  | cons e rest ih =>
    have hcheck : (checkEntry scheme resolve e s).1 = _ := checkEntry_eq hanswer e s
    rw [proofFindingsFrom, bind_run, List.forall_mem_cons, Accepts, ← hcheck]
    -- Stopping early only matters once something was found.
    cases (checkEntry scheme resolve e s).1 with
    | ok _ => simp [ih]
    | error f =>
      cases failFast with
      | true => simp [pure_run]
      | false => simp [bind_run, pure_run]

/-- **The signature stage finds nothing exactly if every entry passes.** -/
theorem proofFindings_eq_nil (hanswer : ∀ did s, (resolve did s).1 = answer did)
    (failFast : Bool) {entries : List Entry} {s : σ} :
    (proofFindings scheme resolve failFast entries s).1 = []
      ↔ ∀ e ∈ entries, Accepts scheme answer e :=
  proofFindingsFrom_eq_nil hanswer failFast

end

end Signature

end AuditTrail
