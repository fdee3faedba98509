import AuditTrail.Issuer.Template
import AuditTrail.Proofs.Json.Value
import AuditTrail.Proofs.Text.Pieces

/-!
# What instantiating a template does

Instantiating changes texts and nothing else: names, shape, numbers and depth of a template stay. A value
is left alone if the placeholder occurs in none of its strings (`instantiate_of_plain`).
-/

namespace AuditTrail

namespace Json

mutual

/-- All strings in a value. -/
def strings : Json → List String
  | .string s => [s]
  | .array items => stringsOfItems items
  | .object members => stringsOfMembers members
  | _ => []
termination_by structural v => v

/-- All strings in items. -/
def stringsOfItems : List Json → List String
  | [] => []
  | v :: rest => strings v ++ stringsOfItems rest
termination_by structural v => v

/-- All strings in the values of members. -/
def stringsOfMembers : List (String × Json) → List String
  | [] => []
  | (_, v) :: rest => strings v ++ stringsOfMembers rest
termination_by structural v => v

end

theorem strings_array (items : List Json) : strings (.array items) = items.flatMap strings := by
  rw [strings]
  induction items with
  | nil => rfl
  | cons v rest ih => rw [stringsOfItems, ih, List.flatMap_cons]

theorem strings_object (members : List (String × Json)) :
    strings (.object members) = members.flatMap fun m => m.2.strings := by
  rw [strings]
  induction members with
  | nil => rfl
  | cons m rest ih => rw [stringsOfMembers, ih, List.flatMap_cons]

end Json

namespace Template

variable {id : String}

theorem instantiateItems_eq (items : List Json) :
    instantiateItems id items = items.map (instantiate id) := by
  induction items with
  | nil => rfl
  | cons v rest ih => rw [instantiateItems, ih, List.map_cons]

theorem instantiateMembers_eq (members : List (String × Json)) :
    instantiateMembers id members = members.map fun m => (m.1, instantiate id m.2) := by
  induction members with
  | nil => rfl
  | cons m rest ih => rw [instantiateMembers, ih, List.map_cons]

theorem instantiate_array (items : List Json) :
    instantiate id (.array items) = .array (items.map (instantiate id)) := by
  rw [instantiate, instantiateItems_eq]

theorem instantiate_object (members : List (String × Json)) :
    instantiate id (.object members) = .object (members.map fun m => (m.1, instantiate id m.2)) := by
  rw [instantiate, instantiateMembers_eq]

theorem wellFormed_instantiate {v : Json} (h : v.WellFormed) : (instantiate id v).WellFormed := by
  induction v with
  | null => exact h
  | bool b => exact h
  | number n => exact h
  | string s => trivial
  | array items ih =>
    rw [instantiate_array, Json.wellFormed_array]
    intro w hw
    obtain ⟨v, hv, rfl⟩ := List.mem_map.mp hw
    exact ih v hv (Json.wellFormed_array.mp h v hv)
  | object members ih =>
    obtain ⟨hsorted, hmembers⟩ := Json.wellFormed_object.mp h
    rw [instantiate_object, Json.wellFormed_object]
    refine ⟨ByName.sorted_map _ hsorted, ?_⟩
    intro e he
    obtain ⟨m, hm, rfl⟩ := List.mem_map.mp he
    exact ih m hm (hmembers m hm)

theorem depth_instantiate {v : Json} {room : Nat} (h : v.depth ≤ room) :
    (instantiate id v).depth ≤ room := by
  induction v generalizing room with
  | null => exact h
  | bool b => exact h
  | number n => exact h
  | string s => exact Nat.zero_le _
  | array items ih =>
    cases room with
    | zero => exact absurd h (by simp [Json.depth])
    | succ room =>
      rw [instantiate_array, Json.depth_array]
      intro w hw
      obtain ⟨v, hv, rfl⟩ := List.mem_map.mp hw
      exact ih v hv (Json.depth_array.mp h v hv)
  | object members ih =>
    cases room with
    | zero => exact absurd h (by simp [Json.depth])
    | succ room =>
      rw [instantiate_object, Json.depth_object]
      intro e he
      obtain ⟨m, hm, rfl⟩ := List.mem_map.mp he
      exact ih m hm (Json.depth_object.mp h m hm)

/-! ## Without the placeholder -/

/-- The placeholder occurs in no string of a value. -/
def Plain (v : Json) : Prop := ∀ s ∈ v.strings, ¬ placeholder.toList <:+: s.toList

theorem fill_of_not_occurs {text : String} (h : ¬ placeholder.toList <:+: text.toList) :
    fill id text = text := by
  have hne : text.toList ≠ placeholder.toList := fun heq => h (heq ▸ List.infix_rfl)
  rw [fill, Text.replaceAll_piece (Or.inr h), if_neg hne, String.ofList_toList]

/-- **A value without the placeholder is left as it is.** -/
theorem instantiate_of_plain {v : Json} (h : Plain v) : instantiate id v = v := by
  induction v with
  | null => rfl
  | bool b => rfl
  | number n => rfl
  | string s => exact congrArg Json.string (fill_of_not_occurs (h s (List.mem_singleton_self s)))
  | array items ih =>
    rw [instantiate_array, List.map_congr_left, List.map_id]
    intro v hv
    refine ih v hv fun s hs => h s ?_
    rw [Json.strings_array]
    exact List.mem_flatMap.mpr ⟨v, hv, hs⟩
  | object members ih =>
    rw [instantiate_object, List.map_congr_left, List.map_id]
    intro m hm
    refine congrArg (Prod.mk m.1) (ih m hm fun s hs => h s ?_)
    rw [Json.strings_object]
    exact List.mem_flatMap.mpr ⟨m, hm, hs⟩

end Template

end AuditTrail
