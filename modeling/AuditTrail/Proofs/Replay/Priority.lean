import AuditTrail.Proofs.Replay.Tokens
import Mathlib.Data.List.Dedup
import Mathlib.Data.List.Induction

/-!
# In which order tokens are tried

Parties come up one after the other, and tokens are what is tried. A party whose token is there already adds
nothing, so

> a token stands where the first party that owns it comes up, under the name of that party
> (`byFirstOwner_foldl`).

This is an invariant of the parties that have come up so far: one more party either owns a token that nobody
before it does, and then the token goes to the end, or it changes nothing. The token of no party comes after
all of them, and only if no party owns it (`Closing`).

That the audited parties are sorted makes the list a function of which parties they are
(`order_congr`): a party that comes up again finds its own token there.
-/

namespace AuditTrail.Replay.PartyTokens

variable {t : PartyTokens} {parties : List String} {attempts : List Attempt} {party : String}

/-! ## First owners -/

/-- How many parties come up before the first one that owns a token. -/
def place (t : PartyTokens) (parties : List String) (token : Option String) : Nat :=
  parties.findIdx fun party => t.byParty.find? party == token

/-- Attempts with the tokens of parties, each at the place and under the name of its first owner. -/
structure ByFirstOwner (t : PartyTokens) (parties : List String) (attempts : List Attempt) : Prop where
  owned : ∀ token, some token ∈ attempts.map Attempt.token
    ↔ ∃ party ∈ parties, t.byParty.find? party = some token
  placed : ∀ a ∈ attempts, a.token.isSome = true ∧ parties[t.place parties a.token]? = some a.label
  ordered : attempts.Pairwise fun a b => t.place parties a.token < t.place parties b.token

theorem place_append {token : Option String} (h : t.place parties token < parties.length)
    (more : List String) : t.place (parties ++ more) token = t.place parties token := by
  unfold place at h ⊢
  rw [List.findIdx_append, if_pos h]

/-- A token that nobody owns so far comes next. -/
theorem place_concat {token : String} (hparty : t.byParty.find? party = some token)
    (hnew : ∀ before ∈ parties, t.byParty.find? before ≠ some token) :
    t.place (parties ++ [party]) (some token) = parties.length := by
  unfold place
  rw [List.findIdx_append, if_neg]
  · simp [List.findIdx_cons, hparty]
  · intro hlt
    obtain ⟨before, hbefore, howns⟩ := List.findIdx_lt_length.mp hlt
    exact hnew before hbefore (beq_iff_eq.mp howns)

namespace ByFirstOwner

theorem place_lt (h : t.ByFirstOwner parties attempts) {a : Attempt} (ha : a ∈ attempts) :
    t.place parties a.token < parties.length := by
  obtain ⟨hlt, _⟩ := List.getElem?_eq_some_iff.mp (h.placed a ha).2
  exact hlt

theorem nodup (h : t.ByFirstOwner parties attempts) : (attempts.map Attempt.token).Nodup := by
  refine List.pairwise_map.mpr (h.ordered.imp ?_)
  intro a b hlt heq
  rw [heq] at hlt
  exact Nat.lt_irrefl _ hlt

/-- What stands where it should goes on to do so when more parties come up. -/
theorem placed_append (h : t.ByFirstOwner parties attempts) (more : List String) :
    (∀ a ∈ attempts, a.token.isSome = true
        ∧ (parties ++ more)[t.place (parties ++ more) a.token]? = some a.label)
      ∧ attempts.Pairwise fun a b => t.place (parties ++ more) a.token < t.place (parties ++ more) b.token := by
  constructor
  · intro a ha
    obtain ⟨hsome, hlabel⟩ := h.placed a ha
    refine ⟨hsome, ?_⟩
    rw [place_append (h.place_lt ha), List.getElem?_append_left (h.place_lt ha)]
    exact hlabel
  · refine h.ordered.imp_of_mem ?_
    intro a b ha hb hlt
    rw [place_append (h.place_lt ha), place_append (h.place_lt hb)]
    exact hlt

/-- A party that owns nothing new changes nothing. -/
theorem concat_old (h : t.ByFirstOwner parties attempts)
    (hold : ∀ token, t.byParty.find? party = some token → some token ∈ attempts.map Attempt.token) :
    t.ByFirstOwner (parties ++ [party]) attempts where
  owned := by
    intro token
    rw [h.owned]
    constructor
    · rintro ⟨owner, howner, hfound⟩
      exact ⟨owner, List.mem_append_left _ howner, hfound⟩
    · rintro ⟨owner, howner, hfound⟩
      rcases List.mem_append.mp howner with howner | howner
      · exact ⟨owner, howner, hfound⟩
      · rw [List.mem_singleton.mp howner] at hfound
        exact (h.owned token).mp (hold token hfound)
  placed := (h.placed_append [party]).1
  ordered := (h.placed_append [party]).2

/-- A party with a token of its own puts it at the end. -/
theorem concat_new (h : t.ByFirstOwner parties attempts) {token : String}
    (hparty : t.byParty.find? party = some token) (hnew : some token ∉ attempts.map Attempt.token) :
    t.ByFirstOwner (parties ++ [party]) (attempts ++ [⟨party, some token⟩]) := by
  have hplace : t.place (parties ++ [party]) (some token) = parties.length := by
    refine place_concat hparty ?_
    intro before hbefore hfound
    exact hnew ((h.owned token).mpr ⟨before, hbefore, hfound⟩)
  obtain ⟨hplaced, hordered⟩ := h.placed_append [party]
  refine ⟨?_, ?_, ?_⟩
  · intro other
    rw [List.map_append, List.mem_append, h.owned]
    simp only [List.map_cons, List.map_nil, List.mem_singleton, List.mem_append, or_and_right, exists_or,
      exists_eq_left, hparty]
    exact or_congr_right eq_comm
  · intro a ha
    rcases List.mem_append.mp ha with ha | ha
    · exact hplaced a ha
    · rw [List.mem_singleton.mp ha]
      refine ⟨rfl, ?_⟩
      rw [hplace, List.getElem?_concat_length]
  · refine List.pairwise_append.mpr ⟨hordered, List.pairwise_singleton _ _, ?_⟩
    intro a ha b hb
    rw [List.mem_singleton.mp hb, hplace, place_append (h.place_lt ha)]
    exact h.place_lt ha

/-- One more party. -/
theorem addParty (h : t.ByFirstOwner parties attempts) (party : String) :
    t.ByFirstOwner (parties ++ [party]) (t.addParty attempts party) := by
  unfold PartyTokens.addParty
  cases hparty : t.byParty.find? party with
  | none => exact h.concat_old fun token htoken => absurd (hparty.symm.trans htoken) (by simp)
  | some token =>
    rcases addNew_cases attempts party token with ⟨hsame, hmem⟩ | ⟨hadded, hnew⟩
    · dsimp only
      rw [hsame]
      exact h.concat_old fun other hother => Option.some.inj (hparty.symm.trans hother) ▸ hmem
    · dsimp only
      rw [hadded]
      exact h.concat_new hparty hnew

end ByFirstOwner

/-- **A token stands where its first owner comes up.** -/
theorem byFirstOwner_foldl (t : PartyTokens) (parties : List String) :
    t.ByFirstOwner parties (parties.foldl t.addParty []) := by
  induction parties using List.reverseRecOn with
  | nil => exact ⟨by simp, by simp, List.Pairwise.nil⟩
  | append_singleton parties party ih =>
    rw [List.foldl_append]
    exact ih.addParty party

/-! ## What comes after the parties -/

/-- What stands after the tokens of parties: the token of no party, if no party owns it, or an attempt without a
token, if there is none at all. -/
inductive Closing (t : PartyTokens) : List Attempt → Prop
  | legacy {token : String} (htoken : t.legacy = some token)
      (hunowned : ∀ party, t.byParty.find? party ≠ some token) : Closing t [⟨legacyLabel, some token⟩]
  | anonymous (hnone : ∀ token, ¬ t.Holds token) : Closing t [anonymous]
  | nothing (hsome : ∃ token, t.Holds token)
      (howned : ∀ token, t.legacy = some token → ∃ party, t.byParty.find? party = some token) : Closing t []

theorem addLegacy_cases (t : PartyTokens) (attempts : List Attempt) :
    (t.addLegacy attempts = attempts
        ∧ ∀ token, t.legacy = some token → some token ∈ attempts.map Attempt.token)
      ∨ ∃ token, t.legacy = some token ∧ some token ∉ attempts.map Attempt.token
        ∧ t.addLegacy attempts = attempts ++ [⟨legacyLabel, some token⟩] := by
  unfold addLegacy
  cases hlegacy : t.legacy with
  | none => exact Or.inl ⟨rfl, fun token htoken => absurd htoken (by simp)⟩
  | some token =>
    rcases addNew_cases attempts legacyLabel token with ⟨hsame, hmem⟩ | ⟨hadded, hnew⟩
    · exact Or.inl ⟨hsame, fun other hother => Option.some.inj hother ▸ hmem⟩
    · exact Or.inr ⟨token, rfl, hnew, hadded⟩

/-- The attempts are those with the tokens of parties, and what comes after them. -/
theorem exists_order_eq (t : PartyTokens) (hint : Option String) (audited : List String) :
    ∃ ofParties closing, t.order hint audited = ofParties ++ closing
      ∧ t.ByFirstOwner (t.partyOrder hint audited) ofParties ∧ t.Closing closing := by
  have hfirst := byFirstOwner_foldl t (t.partyOrder hint audited)
  rw [order_eq, PartyTokens.attempts]
  generalize (t.partyOrder hint audited).foldl t.addParty [] = ofParties at hfirst
  have howned : ∀ token, some token ∈ ofParties.map Attempt.token
      ↔ ∃ party, t.byParty.find? party = some token :=
    fun token => (hfirst.owned token).trans exists_owner_iff
  rcases t.addLegacy_cases ofParties with ⟨hsame, hlegacy⟩ | ⟨token, hlegacy, hnew, hadded⟩
  · rw [hsame]
    cases ofParties with
    | nil =>
      refine ⟨[], [anonymous], rfl, hfirst, .anonymous ?_⟩
      rintro token (hfound | hfound)
      · exact absurd ((howned token).mpr hfound) List.not_mem_nil
      · exact absurd (hlegacy token hfound) List.not_mem_nil
    | cons first rest =>
      obtain ⟨token, htoken⟩ := Option.isSome_iff_exists.mp (hfirst.placed first List.mem_cons_self).1
      have hmem : some token ∈ (first :: rest).map Attempt.token :=
        htoken ▸ List.mem_map_of_mem List.mem_cons_self
      refine ⟨first :: rest, [], (List.append_nil _).symm, hfirst,
        .nothing ⟨token, Or.inl ((howned token).mp hmem)⟩ ?_⟩
      intro other hother
      exact (howned other).mp (hlegacy other hother)
  · rw [hadded, if_neg (by simp)]
    refine ⟨ofParties, [⟨legacyLabel, some token⟩], rfl, hfirst, .legacy hlegacy ?_⟩
    intro party hfound
    exact hnew ((howned token).mpr ⟨party, hfound⟩)

/-- **No token is tried twice.** -/
theorem nodup_order (t : PartyTokens) (hint : Option String) (audited : List String) :
    ((t.order hint audited).map Attempt.token).Nodup := by
  obtain ⟨ofParties, closing, horder, hfirst, hclosing⟩ := t.exists_order_eq hint audited
  rw [horder, List.map_append]
  cases hclosing with
  | nothing hsome howned => simpa using hfirst.nodup
  | legacy htoken hunowned =>
    refine List.nodup_append.mpr ⟨hfirst.nodup, List.pairwise_singleton _ _, ?_⟩
    rintro tried htried _ hlast rfl
    obtain ⟨party, _, hfound⟩ := (hfirst.owned _).mp (List.mem_singleton.mp hlast ▸ htried)
    exact hunowned party hfound
  | anonymous hnone =>
    refine List.nodup_append.mpr ⟨hfirst.nodup, List.pairwise_singleton _ _, ?_⟩
    rintro tried htried _ hlast rfl
    obtain ⟨a, ha, rfl⟩ := List.mem_map.mp htried
    have hsome := (hfirst.placed a ha).1
    rw [List.mem_singleton.mp hlast] at hsome
    exact absurd hsome (by simp [PartyTokens.anonymous])

/-! ## Parties that come up again -/

@[simp]
theorem addParty_addParty (t : PartyTokens) (attempts : List Attempt) (party : String) :
    t.addParty (t.addParty attempts party) party = t.addParty attempts party := by
  have hthere : ∀ token, t.byParty.find? party = some token →
      some token ∈ (t.addParty attempts party).map Attempt.token :=
    fun token htoken => mem_addParty.mpr (Or.inr ⟨token, rfl, htoken⟩)
  generalize t.addParty attempts party = added at hthere ⊢
  unfold PartyTokens.addParty
  cases hparty : t.byParty.find? party with
  | none => rfl
  | some token =>
    rcases addNew_cases added party token with ⟨hsame, _⟩ | ⟨_, hnew⟩
    · exact hsame
    · exact absurd (hthere token hparty) hnew

/-- Parties in order can be taken once each: those that come up again do so in a row. -/
theorem foldl_addParty_dedup (hsorted : parties.Pairwise (· ≤ ·)) (attempts : List Attempt) :
    parties.foldl t.addParty attempts = parties.dedup.foldl t.addParty attempts := by
  induction parties generalizing attempts with
  | nil => rfl
  | cons party rest ih =>
    obtain ⟨hfirst, hrest⟩ := List.pairwise_cons.mp hsorted
    by_cases hagain : party ∈ rest
    · rw [List.dedup_cons_of_mem hagain, ← ih hrest]
      cases rest with
      | nil => exact absurd hagain List.not_mem_nil
      | cons next others =>
        have hnext : next = party := by
          rcases List.mem_cons.mp hagain with heq | hlater
          · exact heq.symm
          · exact String.le_antisymm ((List.pairwise_cons.mp hrest).1 party hlater)
              (hfirst next List.mem_cons_self)
        rw [hnext, List.foldl_cons, List.foldl_cons, addParty_addParty, List.foldl_cons]
    · rw [List.dedup_cons_of_notMem hagain, List.foldl_cons, List.foldl_cons]
      exact ih hrest _

theorem sorted_mergeSort (audited : List String) :
    (audited.mergeSort fun a b => decide (a ≤ b)).Pairwise (· ≤ ·) := by
  have hsorted := @List.pairwise_mergeSort String (fun a b => decide (a ≤ b)) ?_ ?_ audited
  · exact hsorted.imp of_decide_eq_true
  · intro a b c hab hbc
    exact decide_eq_true (String.le_trans (of_decide_eq_true hab) (of_decide_eq_true hbc))
  · intro a b
    simpa using String.le_total a b

/-- Parties in order are determined by which parties they are. -/
theorem dedup_eq_of_mem_iff {parties' : List String} (hsorted : parties.Pairwise (· ≤ ·))
    (hsorted' : parties'.Pairwise (· ≤ ·)) (hsame : ∀ party, party ∈ parties' ↔ party ∈ parties) :
    parties'.dedup = parties.dedup := by
  refine List.Perm.eq_of_pairwise (fun _ _ _ _ => String.le_antisymm)
    (hsorted'.sublist (List.dedup_sublist _)) (hsorted.sublist (List.dedup_sublist _)) ?_
  refine (List.perm_ext_iff_of_nodup (List.nodup_dedup _) (List.nodup_dedup _)).mpr ?_
  intro party
  rw [List.mem_dedup, List.mem_dedup]
  exact hsame party

/-- **The attempts depend on which parties are audited only**, not on how often and in which order. -/
theorem order_congr (t : PartyTokens) (hint : Option String) {audited audited' : List String}
    (hsame : ∀ party, party ∈ audited' ↔ party ∈ audited) :
    t.order hint audited' = t.order hint audited := by
  have hdedup := dedup_eq_of_mem_iff (sorted_mergeSort audited) (sorted_mergeSort audited')
    (by simpa using hsame)
  have hattempts : t.attempts hint audited' = t.attempts hint audited := by
    unfold PartyTokens.attempts partyOrder
    simp only [List.foldl_append]
    rw [foldl_addParty_dedup (sorted_mergeSort audited'), hdedup,
      ← foldl_addParty_dedup (sorted_mergeSort audited)]
  rw [order_eq, order_eq, hattempts]

/-! ## The order -/

/-- **Every token there is is tried once, where its first owner comes up**: the hinted party, the audited
parties in order, all known parties in order. The token of no party comes last, unless a party owns it too. So
neither the hint nor the audited parties decide which tokens are tried, and how the audited parties are listed
decides nothing. -/
theorem order_by_first_owner (hknown : ByName.Sorted t.byParty) (hint : Option String)
    (audited : List String) :
    ((t.order hint audited).map Attempt.token).Nodup
      ∧ (∀ tried, tried ∈ (t.order hint audited).map Attempt.token
          ↔ (∃ token, tried = some token ∧ (token ∈ t.byParty.map Prod.snd ∨ t.legacy = some token))
            ∨ tried = none ∧ t.byParty = [] ∧ t.legacy = none)
      ∧ (∃ sorted ofParties closing, sorted.Perm audited ∧ sorted.Pairwise (· ≤ ·)
          ∧ t.byParty.names.Pairwise (· ≤ ·)
          ∧ t.order hint audited = ofParties ++ closing
          ∧ t.ByFirstOwner (hint.toList ++ sorted ++ t.byParty.names) ofParties ∧ t.Closing closing)
      ∧ (∀ hint' audited' tried, tried ∈ (t.order hint' audited').map Attempt.token
          ↔ tried ∈ (t.order hint audited).map Attempt.token)
      ∧ ∀ audited', (∀ party, party ∈ audited' ↔ party ∈ audited) →
          t.order hint audited' = t.order hint audited := by
  refine ⟨t.nodup_order hint audited, ?_, ?_, ?_, fun audited' => t.order_congr hint⟩
  · intro tried
    simp only [mem_order, holds_iff_mem hknown, isEmpty, Bool.and_eq_true, List.isEmpty_iff,
      Option.isNone_iff_eq_none]
  · obtain ⟨ofParties, closing, horder, hfirst, hclosing⟩ := t.exists_order_eq hint audited
    refine ⟨_, ofParties, closing, List.mergeSort_perm audited _, sorted_mergeSort audited, ?_, horder,
      hfirst, hclosing⟩
    refine List.pairwise_map.mpr (hknown.imp ?_)
    intro a b hlt
    exact String.not_lt.mp fun hgt => String.lt_irrefl _ (String.lt_trans hlt hgt)
  · intro hint' audited' tried
    rw [mem_order, mem_order]

/-- Carol and Alice own one token, and so do Bob and no party in particular. -/
theorem order_by_first_owner_shared_tokens :
    let tokens : PartyTokens := ⟨[("alice", "A"), ("bob", "B"), ("carol", "A")], some "B"⟩
    ByName.Sorted tokens.byParty
      ∧ ((tokens.order (some "carol") ["bob", "alice", "bob"]).map Attempt.token).Nodup
      ∧ tokens.order (some "carol") ["alice", "bob"] = tokens.order (some "carol") ["bob", "alice", "bob"]
      ∧ some "B" ∈ (tokens.order none []).map Attempt.token := by
  intro tokens
  have hknown : ByName.Sorted tokens.byParty := by
    have hnames : ["alice", "bob", "carol"].Pairwise (· < ·) := by decide +kernel
    exact List.pairwise_map.mp hnames
  obtain ⟨hnodup, hmem, _, hfree, hsame⟩ := order_by_first_owner hknown (some "carol") ["bob", "alice", "bob"]
  refine ⟨hknown, hnodup, hsame _ ?_, ?_⟩
  · intro party
    simp [or_comm, or_left_comm]
  · exact (hfree none [] _).mpr ((hmem _).mpr (Or.inl ⟨"B", rfl, Or.inr rfl⟩))

end AuditTrail.Replay.PartyTokens
