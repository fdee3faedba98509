import AuditTrail.Proofs.Signature.Check

/-!
# What the checks of entries come to

Where all entries are checked, there is one outcome for each of them (`outcomes`), and the findings of the
signature stage are read off the outcomes (`proofFindings_all`). A stage that is to stop at the first failure
has the first of these findings and no other (`proofFindings_first`).

The two need not begin in the same state. A resolver that has been asked before may have kept something, and
its answers are the same nevertheless. All that is asked of the two states is that the resolver cannot tell
them apart (`BlindTo`).
-/

namespace AuditTrail

section

variable {σ α β : Type} {R : σ → σ → Prop}

/-- A program cannot tell related states apart: it has the same result in both, and leaves them related. -/
def BlindTo (R : σ → σ → Prop) (x : StateM σ α) : Prop :=
  ∀ s t, R s t → (x s).1 = (x t).1 ∧ R (x s).2 (x t).2

theorem blindTo_pure (a : α) : BlindTo R (pure a : StateM σ α) := fun _ _ h => ⟨rfl, h⟩

theorem BlindTo.bind {x : StateM σ α} {f : α → StateM σ β} (hx : BlindTo R x)
    (hf : ∀ a, BlindTo R (f a)) : BlindTo R (x >>= f) := by
  intro s t h
  obtain ⟨hresult, hstates⟩ := hx s t h
  rw [bind_run, bind_run, hresult]
  exact hf _ _ _ hstates

end

namespace Signature

variable {σ : Type} {scheme : Scheme} {resolve : Resolver (StateM σ)}

/-- The outcomes of checking all entries, one after the other. -/
def outcomes (scheme : Scheme) (resolve : Resolver (StateM σ)) (entries : List Entry) :
    StateM σ (List (Except Failure Unit)) :=
  entries.mapM (checkEntry scheme resolve)

theorem outcomes_cons (e : Entry) (rest : List Entry) (s : σ) :
    outcomes scheme resolve (e :: rest) s
      = let first := checkEntry scheme resolve e s
        let more := outcomes scheme resolve rest first.2
        (first.1 :: more.1, more.2) := by
  unfold outcomes
  rw [List.mapM_cons]
  rfl

/-- The findings on entries that are numbered from `index` on, by what their checks came to. -/
def findingsOn (index : Nat) : List Entry → List (Except Failure Unit) → List Finding
  | e :: entries, .error f :: outcomes => proofFinding index e f :: findingsOn (index + 1) entries outcomes
  | _ :: entries, .ok () :: outcomes => findingsOn (index + 1) entries outcomes
  | _, _ => []

theorem stage_of_mem_findingsOn {entries : List Entry} {outcomes : List (Except Failure Unit)} {index : Nat}
    {finding : Finding} (h : finding ∈ findingsOn index entries outcomes) : finding.stage = .signature := by
  induction entries generalizing index outcomes with
  | nil => exact absurd h List.not_mem_nil
  | cons e rest ih =>
    match outcomes with
    | [] => exact absurd h List.not_mem_nil
    | .ok () :: more => exact ih h
    | .error f :: more =>
      rcases List.mem_cons.mp h with rfl | h
      · rfl
      · exact ih h

/-- The first entry whose check fails: its index, the entry, and how it fails. -/
structure FirstFailing (entries : List Entry) (outcomes : List (Except Failure Unit)) (index : Nat)
    (e : Entry) (f : Failure) : Prop where
  entry : entries[index]? = some e
  outcome : outcomes[index]? = some (.error f)
  before : ∀ i < index, outcomes[i]? = some (.ok ())

/-- The first finding is the one on the first entry that fails. -/
theorem firstFailing_of_findingsOn {entries : List Entry} {outcomes : List (Except Failure Unit)}
    {start : Nat} (h : findingsOn start entries outcomes ≠ []) : ∃ index e f,
      FirstFailing entries outcomes index e f
        ∧ (findingsOn start entries outcomes).take 1 = [proofFinding (start + index) e f] := by
  induction entries generalizing start outcomes with
  | nil => exact absurd rfl h
  | cons e rest ih =>
    match outcomes with
    | [] => exact absurd rfl h
    | .error f :: more => exact ⟨0, e, f, ⟨rfl, rfl, nofun⟩, rfl⟩
    | .ok () :: more =>
      obtain ⟨index, found, f, hfirst, hfinding⟩ := ih h
      refine ⟨index + 1, found, f, ⟨hfirst.entry, hfirst.outcome, ?_⟩, ?_⟩
      · intro i hi
        cases i with
        | zero => rfl
        | succ i => exact hfirst.before i (by omega)
      · rw [findingsOn, hfinding]
        congr 2
        omega

theorem proofFindingsFrom_all (index : Nat) (entries : List Entry) (s : σ) :
    proofFindingsFrom scheme resolve false index entries s
      = (findingsOn index entries (outcomes scheme resolve entries s).1,
        (outcomes scheme resolve entries s).2) := by
  induction entries generalizing index s with
  | nil => rfl
  | cons e rest ih =>
    rw [proofFindingsFrom, bind_run, outcomes_cons]
    dsimp only
    cases (checkEntry scheme resolve e s).1 with
    | ok _ => exact ih _ _
    | error f =>
      dsimp only
      rw [if_neg Bool.false_ne_true, bind_run, pure_run, ih]
      rfl

/-- **A stage that checks all entries finds what their outcomes say.** -/
theorem proofFindings_all (entries : List Entry) (s : σ) :
    proofFindings scheme resolve false entries s
      = (findingsOn 0 entries (outcomes scheme resolve entries s).1,
        (outcomes scheme resolve entries s).2) := proofFindingsFrom_all 0 entries s

section

variable {R : σ → σ → Prop}

theorem blindTo_checkEntry (hresolve : ∀ did, BlindTo R (resolve did)) (e : Entry) :
    BlindTo R (checkEntry scheme resolve e) := by
  unfold checkEntry
  cases didOf e.proof.verificationMethod with
  | error fault => exact blindTo_pure _
  | ok did =>
    refine (hresolve did).bind fun found => ?_
    cases found <;> exact blindTo_pure _

theorem proofFindingsFrom_first (hresolve : ∀ did, BlindTo R (resolve did)) (index : Nat)
    (entries : List Entry) {s t : σ} (hstates : R s t) :
    let found := findingsOn index entries (outcomes scheme resolve entries t).1
    (proofFindingsFrom scheme resolve true index entries s).1 = found.take 1
      ∧ (found = [] → R (proofFindingsFrom scheme resolve true index entries s).2
        (outcomes scheme resolve entries t).2) := by
  induction entries generalizing index s t with
  | nil => exact ⟨rfl, fun _ => hstates⟩
  | cons e rest ih =>
    have hcheck : BlindTo R (checkEntry scheme resolve e) := blindTo_checkEntry hresolve e
    obtain ⟨hresult, hafter⟩ := hcheck s t hstates
    rw [proofFindingsFrom, bind_run, outcomes_cons, hresult]
    dsimp only
    -- The states are carried along only while nothing was found. After that the stage has ended.
    cases (checkEntry scheme resolve e t).1 with
    | ok _ => exact ih (index + 1) hafter
    | error f => exact ⟨rfl, fun hnone => absurd hnone (List.cons_ne_nil _ _)⟩

/-- **A stage that stops at the first failure has the first finding.** As long as there is none, the two
stages cannot be told apart. -/
theorem proofFindings_first (hresolve : ∀ did, BlindTo R (resolve did)) (entries : List Entry) {s t : σ}
    (hstates : R s t) :
    (proofFindings scheme resolve true entries s).1 = (proofFindings scheme resolve false entries t).1.take 1
      ∧ ((proofFindings scheme resolve false entries t).1 = [] →
        R (proofFindings scheme resolve true entries s).2
          (proofFindings scheme resolve false entries t).2) := by
  rw [proofFindings_all]
  exact proofFindingsFrom_first hresolve 0 entries hstates

end

end Signature

end AuditTrail
