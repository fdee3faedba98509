import AuditTrail.Log.Entry
import AuditTrail.Proofs.Json.Value

/-!
# Logs that come from a text

The values inside a log, the parameters of its actions and its state, are values that were read, and
every log that is read has well-formed ones (`Log.wellFormed_of_ofText?`). What is proved about the
hashes of a log is proved about such logs.
-/

namespace AuditTrail

open Json.Tree (enter? orElse? list? members? value? record? nullable? text?)

/-- An entry whose parameters are values that can be read from a text. -/
def Entry.WellFormed (e : Entry) : Prop := Json.WellFormed (.object e.action.parameters)

/-- A log whose parameters and state are values that can be read from a text. -/
structure Log.WellFormed (l : Log) : Prop where
  entries : ∀ e ∈ l.entries, e.WellFormed
  state : l.state.WellFormed

/-! ## Readers -/

theorem orElse?_cases {α : Type} {default a : α} {read : Json.Tree → Option α}
    {slot : Option (Option Json.Tree)} (h : orElse? default read slot = some a) :
    a = default ∨ ∃ t, read t = some a := by
  simp only [orElse?, Option.bind_eq_bind, Option.bind_eq_some_iff] at h
  obtain ⟨found, _, hfound⟩ := h
  cases found with
  | none => exact Or.inl (Option.some.inj hfound).symm
  | some t => exact Or.inr ⟨t, hfound⟩

theorem mem_of_mapM {α β : Type} {f : α → Option β} {items : List α} {found : List β}
    (h : items.mapM f = some found) {b : β} (hb : b ∈ found) : ∃ a ∈ items, f a = some b := by
  induction items generalizing found with
  | nil =>
    rw [List.mapM_nil] at h
    rw [← Option.some.inj h] at hb
    exact absurd hb List.not_mem_nil
  | cons a rest ih =>
    simp only [List.mapM_cons, Option.bind_eq_bind, Option.bind_eq_some_iff] at h
    obtain ⟨c, hc, more, hmore, hfound⟩ := h
    rw [← Option.some.inj hfound] at hb
    rcases List.mem_cons.mp hb with rfl | hb
    · exact ⟨a, List.mem_cons_self, hc⟩
    · obtain ⟨a', ha', hread⟩ := ih hmore hb
      exact ⟨a', List.mem_cons_of_mem _ ha', hread⟩

/-- A container takes one place of the room. -/
theorem enter?_eq_some {room inner : Nat} (h : enter? room = some inner) : room = inner + 1 := by
  cases room with
  | zero => exact absurd h (by simp [enter?])
  | succ room => rw [Option.some.inj h]

theorem list?_eq_some {α : Type} {read : Nat → Json.Tree → Option α} {room : Nat} {t : Json.Tree}
    {found : List α} (h : list? read room t = some found) :
    ∃ inner, room = inner + 1 ∧ ∀ a ∈ found, ∃ t', read inner t' = some a := by
  unfold list? at h
  split at h
  · simp only [Option.bind_eq_bind, Option.bind_eq_some_iff] at h
    obtain ⟨inner, henter, hfound⟩ := h
    refine ⟨inner, enter?_eq_some henter, fun a ha => ?_⟩
    obtain ⟨t', _, hread⟩ := mem_of_mapM hfound ha
    exact ⟨t', hread⟩
  · exact absurd h (by simp)

/-- The members of a record are read as those of an object are. -/
theorem value?_of_members? {room : Nat} {t : Json.Tree} {members : Json.Members}
    (h : members? room t = some members) : value? room t = some (.object members) := by
  unfold members? at h
  split at h
  · simp only [Option.bind_eq_bind, Option.bind_eq_some_iff] at h
    obtain ⟨inner, henter, hmembers⟩ := h
    obtain ⟨entries, hentries, rfl⟩ := Option.map_eq_some_iff.mp hmembers
    rw [enter?_eq_some henter, value?, hentries, Option.map_some]
    rfl
  · exact absurd h (by simp)

/-- Members that were read are the members of a well-formed object. -/
theorem wellFormed_of_members? {room : Nat} {t : Json.Tree} {members : Json.Members}
    (h : members? room t = some members) : Json.WellFormed (.object members) :=
  (Json.Tree.wellFormed_of_value? (value?_of_members? h)).1

/-! ## Logs -/

theorem wellFormed_noMembers : Json.WellFormed (.object []) :=
  Json.wellFormed_object.mpr ⟨List.Pairwise.nil, fun _ h => absurd h List.not_mem_nil⟩

theorem wellFormed_of_actionTree {room : Nat} {t : Json.Tree} {a : Action}
    (h : Action.ofTree? room t = some a) : Json.WellFormed (.object a.parameters) := by
  simp only [Action.ofTree?, Option.bind_eq_bind, Option.bind_eq_some_iff, Option.some.injEq] at h
  obtain ⟨_, _, _, _, _, _, parameters, hparameters, rfl⟩ := h
  rcases orElse?_cases hparameters with rfl | ⟨t', hread⟩
  · exact wellFormed_noMembers
  · exact wellFormed_of_members? hread

theorem wellFormed_of_entryTree {room : Nat} {t : Json.Tree} {e : Entry}
    (h : Entry.ofTree? room t = some e) : e.WellFormed := by
  simp only [Entry.ofTree?, Option.bind_eq_bind, Option.bind_eq_some_iff, Option.some.injEq] at h
  obtain ⟨_, _, _, _, _, _, action, haction, _, _, _, _, _, _, _, _, rfl⟩ := h
  rcases orElse?_cases haction with rfl | ⟨t', hread⟩
  · exact wellFormed_noMembers
  · exact wellFormed_of_actionTree hread

/-- **A log that was read is well-formed.** -/
theorem Log.wellFormed_of_ofText? {text : String} {l : Log} (h : Log.ofText? text = some l) :
    l.WellFormed := by
  simp only [Log.ofText?, Json.readAs?, Log.ofTree?, Option.bind_eq_bind,
    Option.bind_eq_some_iff, Option.some.injEq] at h
  obtain ⟨_, _, _, _, entries, hentries, state, hstate, rfl⟩ := h
  refine ⟨?_, ?_⟩
  · intro e he
    rcases orElse?_cases hentries with rfl | ⟨t, hread⟩
    · exact absurd he List.not_mem_nil
    · obtain ⟨_, _, hitems⟩ := list?_eq_some hread
      obtain ⟨_, hentry⟩ := hitems e he
      exact wellFormed_of_entryTree hentry
  · rcases orElse?_cases hstate with rfl | ⟨t, hread⟩
    · exact wellFormed_noMembers
    · exact (Json.Tree.wellFormed_of_value? hread).1

end AuditTrail
