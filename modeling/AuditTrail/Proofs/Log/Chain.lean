import AuditTrail.Log.Chain

/-!
# Chains without findings

The check of the chain reports nothing exactly if every entry repeats the hash of the one before it
and the first one repeats none (`Linked`). The check runs from the front and carries the entry
before along, so everything is stated for entries that follow a given one. Two forms are used: at
every two neighbours (`linked_iff_getElem?`), and at the last entry (`linked_concat`).
-/

namespace AuditTrail

/-- Whether an entry repeats the hash of the one before it, and none if there is no such entry. -/
def Entry.Follows (e : Entry) (previous : Option Entry) : Prop :=
  e.previousHash = previous.map Entry.hash

/-- Whether every entry follows the one before it; the first follows `previous`. -/
def Linked (previous : Option Entry) : List Entry → Prop
  | [] => True
  | e :: rest => e.Follows previous ∧ Linked (some e) rest

theorem linkFault?_eq_none {previous : Option Entry} {e : Entry} :
    linkFault? previous e = none ↔ e.Follows previous := by
  unfold linkFault? Entry.Follows
  cases previous with
  | none => simp
  | some p => simp

theorem linkFaultsFrom_eq_nil {entries : List Entry} {index : Nat} {previous : Option Entry} :
    linkFaultsFrom index previous entries = [] ↔ Linked previous entries := by
  induction entries generalizing index previous with
  | nil => simp [linkFaultsFrom, Linked]
  | cons e rest ih =>
    rw [linkFaultsFrom, List.append_eq_nil_iff, ih, Linked, ← linkFault?_eq_none]
    cases linkFault? previous e with
    | none => simp
    | some fault => simp

/-- **The chain has no findings exactly if every link holds.** -/
theorem chainFindings_eq_nil {entries : List Entry} :
    chainFindings entries = [] ↔ Linked none entries := by
  rw [chainFindings, List.map_eq_nil_iff, linkFaultsFrom_eq_nil]

theorem linked_iff_getElem? {entries : List Entry} {previous : Option Entry} :
    Linked previous entries ↔ (∀ e, entries[0]? = some e → e.Follows previous)
      ∧ ∀ (i : Nat) (e f : Entry), entries[i]? = some e → entries[i + 1]? = some f →
        f.Follows (some e) := by
  induction entries generalizing previous with
  | nil => simp [Linked]
  | cons first rest ih =>
    rw [Linked, ih]
    constructor
    · intro h
      obtain ⟨hfirst, hsecond, hrest⟩ := h
      refine ⟨?_, ?_⟩
      · intro e he
        rw [List.getElem?_cons_zero, Option.some.injEq] at he
        exact he ▸ hfirst
      -- The first link is the one that the next entry has to the first; the others are links of the rest.
      · intro i e f he hf
        cases i with
        | zero =>
          rw [List.getElem?_cons_zero, Option.some.injEq] at he
          exact he ▸ hsecond f hf
        | succ i => exact hrest i e f he hf
    · intro h
      obtain ⟨hfirst, hlinks⟩ := h
      refine ⟨hfirst first rfl, ?_, ?_⟩
      · intro f hf
        exact hlinks 0 first f rfl hf
      · intro i e f he hf
        exact hlinks (i + 1) e f he hf

theorem linked_concat {entries : List Entry} {e : Entry} {previous : Option Entry} :
    Linked previous (entries ++ [e])
      ↔ Linked previous entries ∧ e.Follows (entries.getLast?.or previous) := by
  induction entries generalizing previous with
  | nil => simp [Linked]
  | cons first rest ih =>
    rw [List.cons_append, Linked, Linked, ih, and_assoc]
    cases rest with
    | nil => simp
    | cons second more => simp [List.getLast?_cons]

/-- The last entry records the hash of the state, if there is a last entry. -/
theorem stateFindings_eq_nil {log : Log} :
    stateFindings log = [] ↔ ∀ e, log.last? = some e → canonicalHash log.state = e.stateHash := by
  unfold stateFindings
  cases log.last? with
  | none => simp
  | some last => simp

end AuditTrail
