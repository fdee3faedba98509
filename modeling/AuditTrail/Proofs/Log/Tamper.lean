import AuditTrail.Proofs.Log.Chain
import AuditTrail.Proofs.Log.Commitment
import Mathlib.Data.List.Induction

/-!
# Tamper evidence

The hash of the last entry of a chain without findings commits to the whole chain: another chain
with the same last hash agrees with it at every entry, or two of the texts that were hashed collide
(`linked_same`). The induction goes from the last entry to the first, because an entry commits to the
one before it. Two chains of different length end differently: the first entry of the shorter one
has no previous hash, and the entry beside it has one.
-/

namespace AuditTrail

/-- The texts whose digests are the hashes of a log's entries. -/
def Log.projectionTexts (l : Log) : List String := l.entries.map fun e => e.projection.canonical

/-- Two chains with one last hash agree at every entry, or their texts collide. -/
theorem linked_same {texts : List String} {a b : List Entry}
    (ha : ∀ e ∈ a, e.WellFormed ∧ e.projection.canonical ∈ texts)
    (hb : ∀ e ∈ b, e.WellFormed ∧ e.projection.canonical ∈ texts)
    (hlinked : Linked none a) (hlinked' : Linked none b)
    (hlast : a.getLast?.map Entry.hash = b.getLast?.map Entry.hash) :
    List.Forall₂ Entry.SameCommitted a b ∨ Collision texts := by
  induction a using List.reverseRecOn generalizing b with
  | nil =>
    rw [List.getLast?_nil, Option.map_none, eq_comm, Option.map_eq_none_iff,
      List.getLast?_eq_none_iff] at hlast
    subst hlast
    exact Or.inl List.Forall₂.nil
  | append_singleton front e ih =>
    rcases List.eq_nil_or_concat b with rfl | ⟨front', f, rfl⟩
    · simp at hlast
    · rw [List.concat_eq_append] at hb hlinked' hlast ⊢
      rw [List.getLast?_concat, List.getLast?_concat, Option.map_some, Option.map_some,
        Option.some.injEq] at hlast
      obtain ⟨hwell, hmem⟩ := ha e (List.mem_append_right _ (List.mem_singleton_self e))
      obtain ⟨hwell', hmem'⟩ := hb f (List.mem_append_right _ (List.mem_singleton_self f))
      obtain ⟨hfront, hfollows⟩ := linked_concat.mp hlinked
      obtain ⟨hfront', hfollows'⟩ := linked_concat.mp hlinked'
      rcases Entry.sameCommitted_of_hash hwell hwell' hmem hmem' hlast with hsame | hcollision
      · -- The last entries agree on the previous hash, so the entries before them have one hash.
        have hbefore : front.getLast?.map Entry.hash = front'.getLast?.map Entry.hash := by
          have hprevious := hsame.previousHash
          rw [hfollows, hfollows', Option.or_none, Option.or_none] at hprevious
          exact hprevious
        rcases ih (fun x hx => ha x (List.mem_append_left _ hx))
          (fun x hx => hb x (List.mem_append_left _ hx)) hfront hfront' hbefore with hrest | hcollision
        · exact Or.inl (List.rel_append hrest (List.Forall₂.cons hsame List.Forall₂.nil))
        · exact Or.inr hcollision
      · exact Or.inr hcollision

/-- **The hash of the last entry commits to the whole log.** -/
theorem tamper_evident {a b : Log} (ha : a.WellFormed) (hb : b.WellFormed)
    (hchain : chainFindings a.entries = []) (hchain' : chainFindings b.entries = [])
    {e f : Entry} (he : a.last? = some e) (hf : b.last? = some f) (hhash : e.hash = f.hash) :
    (List.Forall₂ Entry.SameCommitted a.entries b.entries
        ∨ Collision (a.projectionTexts ++ b.projectionTexts))
      ∧ (stateFindings a = [] → stateFindings b = [] →
        (List.Forall₂ Entry.SameCommitted a.entries b.entries ∧ a.state.SameUpToNumbers b.state)
          ∨ Collision (a.projectionTexts ++ b.projectionTexts
              ++ [a.state.canonical, b.state.canonical])) := by
  have htexts : ∀ x ∈ a.entries,
      x.projection.canonical ∈ a.projectionTexts ++ b.projectionTexts := fun x hx =>
    List.mem_append_left _ (List.mem_map_of_mem hx)
  have htexts' : ∀ x ∈ b.entries,
      x.projection.canonical ∈ a.projectionTexts ++ b.projectionTexts := fun x hx =>
    List.mem_append_right _ (List.mem_map_of_mem hx)
  have hlast : a.entries.getLast?.map Entry.hash = b.entries.getLast?.map Entry.hash := by
    unfold Log.last? at he hf
    rw [he, hf, Option.map_some, Option.map_some, hhash]
  have hentries : List.Forall₂ Entry.SameCommitted a.entries b.entries
      ∨ Collision (a.projectionTexts ++ b.projectionTexts) :=
    linked_same (fun x hx => ⟨ha.entries x hx, htexts x hx⟩)
      (fun x hx => ⟨hb.entries x hx, htexts' x hx⟩)
      (chainFindings_eq_nil.mp hchain) (chainFindings_eq_nil.mp hchain') hlast
  refine ⟨hentries, ?_⟩
  intro hstate hstate'
  have hsub : a.projectionTexts ++ b.projectionTexts ⊆ a.projectionTexts ++ b.projectionTexts
      ++ [a.state.canonical, b.state.canonical] := List.subset_append_left _ _
  rcases hentries with hsame | hcollision
  · have hmem : e ∈ a.entries := List.mem_of_getLast? he
    have hmem' : f ∈ b.entries := List.mem_of_getLast? hf
    rcases Entry.sameCommitted_of_hash (ha.entries e hmem) (hb.entries f hmem') (htexts e hmem)
      (htexts' f hmem') hhash with hcommitted | hcollision
    · have hstateHash : canonicalHash a.state = canonicalHash b.state := by
        rw [stateFindings_eq_nil.mp hstate e he, stateFindings_eq_nil.mp hstate' f hf]
        exact hcommitted.stateHash
      rcases canonicalHash_eq ha.state hb.state (List.mem_append_right _ List.mem_cons_self)
        (List.mem_append_right _ (List.mem_cons_of_mem _ List.mem_cons_self)) hstateHash
        with hstates | hcollision
      · exact Or.inl ⟨hsame, hstates⟩
      · exact Or.inr hcollision
    · exact Or.inr (hcollision.mono hsub)
  · exact Or.inr (hcollision.mono hsub)

/-- A log of two entries, the second with a number as its only parameter. -/
def twoEntryLog (amount : Json.Number) (proof : Proof) : Log :=
  let first : Entry :=
    ⟨"urn:entry:1", "2024-01-01T00:00:00Z", ⟨some .constructor, "create", []⟩, [],
      canonicalHash (.object []), none, proof⟩
  let second : Entry :=
    ⟨"urn:entry:2", "2024-01-02T00:00:00Z", ⟨none, "pay", [("amount", .number amount)]⟩, [],
      canonicalHash (.object []), some first.hash, proof⟩
  ⟨[first, second], .object []⟩

theorem wellFormed_twoEntryLog {amount : Json.Number} (h : Json.WellFormed (.number amount))
    (proof : Proof) : (twoEntryLog amount proof).WellFormed := by
  refine ⟨?_, wellFormed_noMembers⟩
  intro e he
  rcases List.mem_pair.mp he with rfl | rfl
  · exact wellFormed_noMembers
  · refine Json.wellFormed_object.mpr ⟨List.pairwise_singleton _ _, ?_⟩
    intro m hm
    rw [List.mem_singleton.mp hm]
    exact h

/-- One, as a double. -/
def doubleOne : Number.Double := ⟨false, 1023 * Number.mantissas, by decide⟩

/-- Another spelling of a number and another proof leave the hash of the last entry as it was. -/
theorem tamper_evident_respelled :
    (List.Forall₂ Entry.SameCommitted (twoEntryLog (.int 1) .blank).entries
        (twoEntryLog (.double doubleOne) ⟨"", "", "", "", "x"⟩).entries
      ∧ (twoEntryLog (.int 1) .blank).state.SameUpToNumbers
        (twoEntryLog (.double doubleOne) ⟨"", "", "", "", "x"⟩).state)
    ∨ Collision ((twoEntryLog (.int 1) .blank).projectionTexts
        ++ (twoEntryLog (.double doubleOne) ⟨"", "", "", "", "x"⟩).projectionTexts
        ++ [(twoEntryLog (.int 1) .blank).state.canonical,
          (twoEntryLog (.double doubleOne) ⟨"", "", "", "", "x"⟩).state.canonical]) := by
  have hwell := wellFormed_twoEntryLog (show Json.WellFormed (.number (.int 1)) from rfl) .blank
  have hwell' := wellFormed_twoEntryLog (show Json.WellFormed (.number (.double doubleOne)) from trivial)
    ⟨"", "", "", "", "x"⟩
  have hamount : Json.Number.inDoubles (.int 1) = Json.Number.inDoubles (.double doubleOne) := by
    decide +kernel
  have hparameters : Json.SameUpToNumbers (.object [("amount", .number (.int 1))])
      (.object [("amount", .number (.double doubleOne))]) :=
    Json.sameUpToNumbers_object.mpr
      (List.Forall₂.cons ⟨rfl, congrArg Json.number hamount⟩ List.Forall₂.nil)
  have hlast : Entry.SameCommitted (twoEntryLog (.int 1) .blank).entries[1]
      (twoEntryLog (.double doubleOne) ⟨"", "", "", "", "x"⟩).entries[1] :=
    ⟨rfl, rfl, rfl, rfl, hparameters, rfl, rfl, rfl⟩
  have hhash := hlast.hash_eq (hwell.entries _ (List.getElem_mem _))
    (hwell'.entries _ (List.getElem_mem _))
  exact (tamper_evident hwell hwell' (chainFindings_eq_nil.mpr ⟨rfl, rfl, trivial⟩)
    (chainFindings_eq_nil.mpr ⟨rfl, rfl, trivial⟩) rfl rfl hhash).2
      (stateFindings_eq_nil.mpr fun e he => by rw [← Option.some.inj he]; rfl)
      (stateFindings_eq_nil.mpr fun e he => by rw [← Option.some.inj he]; rfl)

end AuditTrail
