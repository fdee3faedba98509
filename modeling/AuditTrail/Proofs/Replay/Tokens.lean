import AuditTrail.Proofs.ByName
import AuditTrail.Replay.Tokens

/-!
# Which tokens are tried

Hints and parties decide in which order tokens are tried. Which tokens these are does not depend on them,
since the parties that have a token all come up in the end (`mem_attempts`). So a call is tried with every
token there is, or without one if there is none (`mem_order`).
-/

namespace AuditTrail.Replay.PartyTokens

variable {t : PartyTokens} {tried : Option String}

/-- Whether a token is there, under whatever name. -/
def Holds (t : PartyTokens) (token : String) : Prop :=
  (∃ party, t.byParty.find? party = some token) ∨ t.legacy = some token

theorem holds_iff_mem (hsorted : ByName.Sorted t.byParty) {token : String} :
    t.Holds token ↔ token ∈ t.byParty.map Prod.snd ∨ t.legacy = some token := by
  unfold Holds
  rw [ByName.exists_find?_iff hsorted]

theorem isEmpty_iff : t.isEmpty = true ↔ ∀ token, ¬ t.Holds token := by
  obtain ⟨byParty, legacy⟩ := t
  constructor
  · intro h
    simp only [isEmpty, Bool.and_eq_true, List.isEmpty_iff, Option.isNone_iff_eq_none] at h
    obtain ⟨rfl, rfl⟩ := h
    rintro token (⟨party, hparty⟩ | hlegacy)
    · exact absurd hparty (by simp [ByName.find?])
    · exact absurd hlegacy (by simp)
  · intro h
    have hlegacy : legacy = none := by
      cases legacy with
      | none => rfl
      | some token => exact absurd (Or.inr rfl) (h token)
    have hparties : byParty = [] := by
      cases byParty with
      | nil => rfl
      | cons entry rest =>
        have hfirst : ByName.find? entry.1 (entry :: rest) = some entry.2 := by
          rw [ByName.find?_cons, if_pos rfl]
        exact absurd (Or.inl ⟨entry.1, hfirst⟩) (h entry.2)
    rw [hlegacy, hparties]
    rfl

/-- An attempt is added at the end, or its token has been tried before. -/
theorem addNew_cases (attempts : List Attempt) (label token : String) :
    (addNew attempts label token = attempts ∧ some token ∈ attempts.map Attempt.token)
      ∨ (addNew attempts label token = attempts ++ [⟨label, some token⟩]
        ∧ some token ∉ attempts.map Attempt.token) := by
  unfold addNew
  by_cases hany : (attempts.any fun a => a.token == some token) = true
  · refine Or.inl ⟨if_pos hany, ?_⟩
    obtain ⟨a, ha, htoken⟩ := List.any_eq_true.mp hany
    exact beq_iff_eq.mp htoken ▸ List.mem_map_of_mem ha
  · refine Or.inr ⟨if_neg hany, fun hmem => hany ?_⟩
    obtain ⟨a, ha, htoken⟩ := List.mem_map.mp hmem
    exact List.any_eq_true.mpr ⟨a, ha, beq_iff_eq.mpr htoken⟩

theorem mem_addNew {attempts : List Attempt} {label token : String} :
    tried ∈ (addNew attempts label token).map Attempt.token
      ↔ tried ∈ attempts.map Attempt.token ∨ tried = some token := by
  rcases addNew_cases attempts label token with ⟨hsame, hmem⟩ | ⟨hadded, _⟩
  · rw [hsame]
    exact ⟨Or.inl, fun h => h.elim id fun heq => heq ▸ hmem⟩
  · simp [hadded]

/-! ## One token after the other -/

/-- Adds the attempt with the token of a party, if the party has one. -/
def addParty (t : PartyTokens) (attempts : List Attempt) (party : String) : List Attempt :=
  match t.byParty.find? party with
  | some token => addNew attempts party token
  | none => attempts

/-- Adds the attempt with the token of no party, if there is one. -/
def addLegacy (t : PartyTokens) (attempts : List Attempt) : List Attempt :=
  match t.legacy with
  | some token => addNew attempts legacyLabel token
  | none => attempts

/-- The attempts, before it is seen whether there are any. -/
def attempts (t : PartyTokens) (hint : Option String) (audited : List String) : List Attempt :=
  t.addLegacy ((t.partyOrder hint audited).foldl t.addParty [])

theorem order_eq (t : PartyTokens) (hint : Option String) (audited : List String) :
    t.order hint audited
      = if (t.attempts hint audited).isEmpty then [anonymous] else t.attempts hint audited := rfl

theorem mem_addParty {attempts : List Attempt} {party : String} :
    tried ∈ (t.addParty attempts party).map Attempt.token
      ↔ tried ∈ attempts.map Attempt.token
        ∨ ∃ token, tried = some token ∧ t.byParty.find? party = some token := by
  unfold addParty
  cases hfound : t.byParty.find? party with
  | none => simp
  | some token => simp [mem_addNew]

theorem mem_addLegacy {attempts : List Attempt} :
    tried ∈ (t.addLegacy attempts).map Attempt.token
      ↔ tried ∈ attempts.map Attempt.token ∨ ∃ token, tried = some token ∧ t.legacy = some token := by
  unfold addLegacy
  cases hfound : t.legacy with
  | none => simp
  | some token => simp [mem_addNew]

theorem mem_foldl_addParty {parties : List String} {attempts : List Attempt} :
    tried ∈ (parties.foldl t.addParty attempts).map Attempt.token
      ↔ tried ∈ attempts.map Attempt.token
        ∨ ∃ token, tried = some token ∧ ∃ party ∈ parties, t.byParty.find? party = some token := by
  induction parties generalizing attempts with
  | nil => simp
  | cons party rest ih =>
    rw [List.foldl_cons, ih, mem_addParty, or_assoc]
    refine or_congr_right ?_
    simp only [List.mem_cons, exists_eq_or_imp, and_or_left, exists_or]

/-- The parties that have a token all come up, since the known ones come last. -/
theorem exists_owner_iff {hint : Option String} {audited : List String} {token : String} :
    (∃ party ∈ t.partyOrder hint audited, t.byParty.find? party = some token)
      ↔ ∃ party, t.byParty.find? party = some token := by
  constructor
  · rintro ⟨party, _, hfound⟩
    exact ⟨party, hfound⟩
  · rintro ⟨party, hfound⟩
    exact ⟨party, List.mem_append_right _ (ByName.has_iff.mp (ByName.has_of_find? hfound)), hfound⟩

theorem mem_attempts {hint : Option String} {audited : List String} :
    tried ∈ (t.attempts hint audited).map Attempt.token
      ↔ ∃ token, tried = some token ∧ t.Holds token := by
  unfold attempts
  rw [mem_addLegacy, mem_foldl_addParty]
  simp only [List.map_nil, List.not_mem_nil, false_or, exists_owner_iff, Holds, and_or_left, exists_or]

/-- **A call is tried with every token there is**, whatever the hint and the parties, or without a token
if there is none. -/
theorem mem_order {hint : Option String} {audited : List String} :
    tried ∈ (t.order hint audited).map Attempt.token
      ↔ (∃ token, tried = some token ∧ t.Holds token) ∨ tried = none ∧ t.isEmpty = true := by
  rw [order_eq, isEmpty_iff]
  split
  · rename_i hempty
    have hnone : ∀ token, ¬ t.Holds token := by
      intro token hholds
      have hmem : some token ∈ (t.attempts hint audited).map Attempt.token :=
        mem_attempts.mpr ⟨token, rfl, hholds⟩
      rw [List.isEmpty_iff.mp hempty] at hmem
      exact absurd hmem List.not_mem_nil
    simp [anonymous, hnone]
  · rename_i hsome
    obtain ⟨attempt, hattempt⟩ := List.exists_mem_of_ne_nil _ (mt List.isEmpty_iff.mpr hsome)
    obtain ⟨token, _, hholds⟩ := mem_attempts.mp (List.mem_map_of_mem hattempt)
    rw [mem_attempts]
    exact ⟨Or.inl, fun h => h.elim id fun hnone => absurd hholds (hnone.2 token)⟩

end AuditTrail.Replay.PartyTokens
