import AuditTrail.Proofs.Json.Numbers
import Mathlib.Data.List.Forall2

/-!
# Values that differ in the spelling of numbers only

Two values are the same up to numbers if they become equal once every number is replaced by the
double it denotes: the same shape, names, texts and literals, and numbers that denote the same
doubles (`SameUpToNumbers`). The form in which this is used looks into one constructor at a time
(`sameUpToNumbers_object` and its neighbours).

Replacing numbers is one function with the replacement as a parameter (`mapNumbers`), because
reading a canonical text back is another instance of it.
-/

namespace AuditTrail.Json

mutual

/-- A value with every number replaced. -/
def mapNumbers (f : Json.Number → Json.Number) : Json → Json
  | .null => .null
  | .bool b => .bool b
  | .number n => .number (f n)
  | .string s => .string s
  | .array items => .array (mapItems f items)
  | .object members => .object (mapMembers f members)
termination_by structural v => v

/-- Items with every number replaced. -/
def mapItems (f : Json.Number → Json.Number) : List Json → List Json
  | [] => []
  | v :: rest => mapNumbers f v :: mapItems f rest
termination_by structural v => v

/-- Members with every number replaced. -/
def mapMembers (f : Json.Number → Json.Number) : List (String × Json) → List (String × Json)
  | [] => []
  | (name, v) :: rest => (name, mapNumbers f v) :: mapMembers f rest
termination_by structural v => v

end

/-- Whether two values differ at most in the spelling of numbers. -/
def SameUpToNumbers (a b : Json) : Prop := a.mapNumbers Number.inDoubles = b.mapNumbers Number.inDoubles

section

variable {f : Json.Number → Json.Number}

theorem mapItems_eq (items : List Json) : mapItems f items = items.map (mapNumbers f) := by
  induction items with
  | nil => rfl
  | cons v rest ih => rw [mapItems, ih, List.map_cons]

theorem mapMembers_eq (members : List (String × Json)) :
    mapMembers f members = members.map fun m => (m.1, m.2.mapNumbers f) := by
  induction members with
  | nil => rfl
  | cons m rest ih => rw [mapMembers, ih, List.map_cons]

theorem mapNumbers_array (items : List Json) :
    mapNumbers f (.array items) = .array (items.map (mapNumbers f)) := by
  rw [mapNumbers, mapItems_eq]

theorem mapNumbers_object (members : List (String × Json)) :
    mapNumbers f (.object members) = .object (members.map fun m => (m.1, m.2.mapNumbers f)) := by
  rw [mapNumbers, mapMembers_eq]

/-- A replacement that respects the range of integers respects well-formedness. -/
theorem wellFormed_mapNumbers
    (hf : ∀ n, WellFormed (.number n) → WellFormed (.number (f n))) {v : Json}
    (h : v.WellFormed) : (v.mapNumbers f).WellFormed := by
  induction v with
  | null => exact h
  | bool b => exact h
  | number n => exact hf n h
  | string s => exact h
  | array items ih =>
    rw [mapNumbers_array, wellFormed_array]
    intro w hw
    obtain ⟨v, hv, rfl⟩ := List.mem_map.mp hw
    exact ih v hv (wellFormed_array.mp h v hv)
  | object members ih =>
    obtain ⟨hsorted, hmembers⟩ := wellFormed_object.mp h
    rw [mapNumbers_object, wellFormed_object]
    refine ⟨ByName.sorted_map _ hsorted, ?_⟩
    intro e he
    obtain ⟨m, hm, rfl⟩ := List.mem_map.mp he
    exact ih m hm (hmembers m hm)

/-- Two replacements that agree on the numbers of a value give the same value. -/
theorem mapNumbers_congr {g : Json.Number → Json.Number}
    (hfg : ∀ n, WellFormed (.number n) → f n = g n) {v : Json} (h : v.WellFormed) :
    v.mapNumbers f = v.mapNumbers g := by
  induction v with
  | null => rfl
  | bool b => rfl
  | number n => exact congrArg Json.number (hfg n h)
  | string s => rfl
  | array items ih =>
    rw [mapNumbers_array, mapNumbers_array]
    congr 1
    exact List.map_congr_left fun v hv => ih v hv (wellFormed_array.mp h v hv)
  | object members ih =>
    rw [mapNumbers_object, mapNumbers_object]
    congr 1
    refine List.map_congr_left fun m hm => ?_
    rw [ih m hm ((wellFormed_object.mp h).2 m hm)]

theorem mapNumbers_mapNumbers (g : Json.Number → Json.Number) (v : Json) :
    (v.mapNumbers f).mapNumbers g = v.mapNumbers fun n => g (f n) := by
  induction v with
  | null => rfl
  | bool b => rfl
  | number n => rfl
  | string s => rfl
  | array items ih =>
    rw [mapNumbers_array, mapNumbers_array, mapNumbers_array, List.map_map]
    congr 1
    exact List.map_congr_left fun v hv => ih v hv
  | object members ih =>
    rw [mapNumbers_object, mapNumbers_object, mapNumbers_object, List.map_map]
    congr 1
    refine List.map_congr_left fun m hm => ?_
    exact congrArg (Prod.mk m.1) (ih m hm)

end

/-! ## Looking into a value -/

namespace SameUpToNumbers

variable {a b c : Json}

theorem symm (h : SameUpToNumbers a b) : SameUpToNumbers b a := Eq.symm h

theorem trans (h : SameUpToNumbers a b) (h' : SameUpToNumbers b c) : SameUpToNumbers a c :=
  Eq.trans h h'

end SameUpToNumbers

theorem sameUpToNumbers_string {s t : String} :
    SameUpToNumbers (.string s) (.string t) ↔ s = t := by
  simp [SameUpToNumbers, mapNumbers]

theorem sameUpToNumbers_array {items items' : List Json} :
    SameUpToNumbers (.array items) (.array items')
      ↔ List.Forall₂ SameUpToNumbers items items' := by
  unfold SameUpToNumbers
  rw [mapNumbers_array, mapNumbers_array, Json.array.injEq, ← List.forall₂_eq_eq_eq,
    List.forall₂_map_left_iff, List.forall₂_map_right_iff]

theorem sameUpToNumbers_object {members members' : List (String × Json)} :
    SameUpToNumbers (.object members) (.object members')
      ↔ List.Forall₂ (fun m m' => m.1 = m'.1 ∧ SameUpToNumbers m.2 m'.2) members members' := by
  unfold SameUpToNumbers
  rw [mapNumbers_object, mapNumbers_object, Json.object.injEq, ← List.forall₂_eq_eq_eq,
    List.forall₂_map_left_iff, List.forall₂_map_right_iff]
  simp only [Prod.mk.injEq]

theorem get?_eq_some {name : String} {a v : Json} :
    a.get? name = some v ↔ ∃ members, a = .object members ∧ ByName.find? name members = some v := by
  cases a <;> simp [get?]

theorem get?_mapNumbers (f : Json.Number → Json.Number) (name : String) (v : Json) :
    (v.mapNumbers f).get? name = (v.get? name).map (mapNumbers f) := by
  cases v with
  | object members =>
    rw [mapNumbers_object]
    exact ByName.find?_map (fun _ => mapNumbers f) name members
  | _ => rfl

/-- What is the same up to numbers has the same members, with values that are the same up to numbers. -/
theorem SameUpToNumbers.get? {a b : Json} (h : a.SameUpToNumbers b) {name : String} {v : Json}
    (hv : b.get? name = some v) : ∃ w, a.get? name = some w ∧ w.SameUpToNumbers v := by
  have hfound : (a.mapNumbers Number.inDoubles).get? name
      = (b.mapNumbers Number.inDoubles).get? name := congrArg (Json.get? name) h
  rw [get?_mapNumbers, get?_mapNumbers, hv, Option.map_some, Option.map_eq_some_iff] at hfound
  exact hfound

end AuditTrail.Json
