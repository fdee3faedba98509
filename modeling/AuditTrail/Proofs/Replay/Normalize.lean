import AuditTrail.Proofs.Json.Sameness
import AuditTrail.Replay.Normalize

/-!
# What comparing leaves of a state

Putting the audited id in place of the live one keeps the names of a state, and so does everything that
is done to its members one by one (`ByName.find?_map`). The projection keeps just the members with a
name of the reference. So a member of the reference is compared with the member of that name in the
live state, and if there is none the two are not the same.
-/

namespace AuditTrail.Replay

/-! ## Ids -/

section

variable {live audited name : String} {v : Json}

theorem wellFormed_replaceId (h : v.WellFormed) : (replaceId live audited v).WellFormed := by
  cases v with
  | string s => trivial
  | _ => exact h

theorem wellFormed_replaceIdIn (h : v.WellFormed) : (replaceIdIn live audited name v).WellFormed := by
  unfold replaceIdIn
  split
  · exact wellFormed_replaceId h
  · split
    · split
      · rename_i actions
        obtain ⟨hsorted, hactions⟩ := Json.wellFormed_object.mp h
        refine Json.wellFormed_object.mpr ⟨ByName.sorted_map _ hsorted, ?_⟩
        intro m hm
        obtain ⟨action, haction, rfl⟩ := List.mem_map.mp hm
        exact wellFormed_replaceId (hactions action haction)
      · exact h
    · exact h

theorem wellFormed_withAuditedId (h : v.WellFormed) : (withAuditedId live audited v).WellFormed := by
  unfold withAuditedId
  split
  · exact h
  · split
    · rename_i members
      obtain ⟨hsorted, hmembers⟩ := Json.wellFormed_object.mp h
      refine Json.wellFormed_object.mpr ⟨List.pairwise_map.mpr hsorted, ?_⟩
      intro m hm
      obtain ⟨member, hmember, rfl⟩ := List.mem_map.mp hm
      exact wellFormed_replaceIdIn (hmembers member hmember)
    · exact h

/-- A state under the audited id has the members it had. -/
theorem get?_withAuditedId : (withAuditedId live audited v).get? name
    = (v.get? name).map fun found =>
      if live = audited then found else replaceIdIn live audited name found := by
  unfold withAuditedId
  by_cases hsame : live = audited
  · simp [hsame]
  · simp only [hsame, if_false]
    cases v with
    | object members => exact ByName.find?_map (replaceIdIn live audited) name members
    | _ => rfl

end

/-! ## Projections -/

section

variable {reference state : Json} {name : String} {v : Json}

theorem projected_object {names members : Json.Members} (h : names ≠ []) :
    projected (.object names) (.object members)
      = .object (members.filter fun m => ByName.has m.1 names) := by
  cases names with
  | nil => exact absurd rfl h
  | cons first rest => rfl

theorem projected_of_not_object (h : state.isObject = false) : projected reference state = state := by
  unfold projected
  split
  · rfl
  · simp [Json.isObject] at h
  · rfl

theorem wellFormed_projected (h : state.WellFormed) : (projected reference state).WellFormed := by
  unfold projected
  split
  · exact h
  · rename_i names members _
    obtain ⟨hsorted, hmembers⟩ := Json.wellFormed_object.mp h
    refine Json.wellFormed_object.mpr ⟨ByName.sorted_filter hsorted, ?_⟩
    exact fun m hm => hmembers m (List.mem_of_mem_filter hm)
  · exact h

/-- A member of the reference is left in the state. -/
theorem get?_projected (h : reference.get? name = some v) :
    (projected reference state).get? name = state.get? name := by
  obtain ⟨names, rfl, hfound⟩ := Json.get?_eq_some.mp h
  have hhas : ByName.has name names = true := ByName.has_of_find? hfound
  have hne : names ≠ [] := by
    rintro rfl
    simp [ByName.has] at hhas
  cases state with
  | object members =>
    rw [projected_object hne]
    exact ByName.find?_filter (p := fun n => ByName.has n names) hhas members
  | _ => rw [projected_of_not_object rfl]

end

end AuditTrail.Replay
