import Mathlib.Data.List.Forall2
import AuditTrail.Json.Tree
import AuditTrail.Proofs.ByName

/-!
# Values that come from a text

A value that was read is well-formed and no deeper than the reader allows (`wellFormed_of_read?`).
These are the two facts that what is proved about values asks for, so nothing proved about them is
about values that no text has.

Values and trees hold lists of their own kind. Both get an induction with one case for each
constructor, in which the cases for arrays and objects speak of every member of the list; the
functions that run along such lists get one lemma each that says what they do to a member.
-/

namespace AuditTrail

/-- What stands in the second of two lists side by side has something in the first beside it. -/
theorem exists_left_of_forall₂ {α β : Type} {R : α → β → Prop} {as : List α} {bs : List β}
    (h : List.Forall₂ R as bs) {b : β} (hb : b ∈ bs) : ∃ a ∈ as, R a b := by
  induction h with
  | nil => exact absurd hb List.not_mem_nil
  | cons hab _ ih =>
    rcases List.mem_cons.mp hb with rfl | hb
    · exact ⟨_, List.mem_cons_self, hab⟩
    · obtain ⟨a, ha, hab⟩ := ih hb
      exact ⟨a, List.mem_cons_of_mem _ ha, hab⟩

theorem exists_right_of_forall₂ {α β : Type} {R : α → β → Prop} {as : List α} {bs : List β}
    (h : List.Forall₂ R as bs) {a : α} (ha : a ∈ as) : ∃ b ∈ bs, R a b :=
  exists_left_of_forall₂ h.flip ha

/-- What follows for the elements of the first list follows for the lists. -/
theorem forall₂_of_mem {α β : Type} {R S : α → β → Prop} {as : List α} {bs : List β}
    (h : List.Forall₂ R as bs) (hRS : ∀ a ∈ as, ∀ b, R a b → S a b) : List.Forall₂ S as bs :=
  ((List.forall₂_and_left as bs).mpr ⟨hRS, h⟩).imp fun _ b hab => hab.1 b hab.2

/-- What a function gives for each element of the first list is the second list. -/
theorem eq_map_of_forall₂ {α β : Type} {R : α → β → Prop} {f : α → β} {as : List α} {bs : List β}
    (h : List.Forall₂ R as bs) (hR : ∀ a ∈ as, ∀ b, R a b → f a = b) : as.map f = bs := by
  rw [← List.forall₂_eq_eq_eq, List.forall₂_map_left_iff]
  exact forall₂_of_mem h hR

namespace Json

mutual

/-- How many containers stand inside each other in a value. -/
def depth : Json → Nat
  | .array items => depthItems items + 1
  | .object members => depthMembers members + 1
  | _ => 0
termination_by structural v => v

/-- The depth of the deepest item. -/
def depthItems : List Json → Nat
  | [] => 0
  | v :: rest => max (depth v) (depthItems rest)
termination_by structural v => v

/-- The depth of the deepest member. -/
def depthMembers : List (String × Json) → Nat
  | [] => 0
  | (_, v) :: rest => max (depth v) (depthMembers rest)
termination_by structural v => v

end

/-! ## Induction -/

section

variable {motive : Json → Prop} (null : motive .null) (bool : ∀ b, motive (.bool b))
  (number : ∀ n, motive (.number n)) (string : ∀ s, motive (.string s))
  (array : ∀ items, (∀ v ∈ items, motive v) → motive (.array items))
  (object : ∀ members, (∀ m ∈ members, motive m.2) → motive (.object members))

include null bool number string array object

/-- Induction over values: what holds of all items holds of an array, and what holds of the values
of all members holds of an object. -/
@[elab_as_elim, induction_eliminator]
theorem induction (v : Json) : motive v :=
  match v with
  | .null => null
  | .bool b => bool b
  | .number n => number n
  | .string s => string s
  | .array items => array items fun v _ => induction v
  | .object members => object members fun m _ => induction m.2
termination_by sizeOf v
decreasing_by
  · have := List.sizeOf_lt_of_mem ‹v ∈ items›
    simp only [Json.array.sizeOf_spec]
    omega
  · obtain ⟨name, v⟩ := m
    have := List.sizeOf_lt_of_mem ‹(name, v) ∈ members›
    simp only [Json.object.sizeOf_spec, Prod.mk.sizeOf_spec] at this ⊢
    omega

end

section

variable {motive : Tree → Prop} (null : motive .null) (bool : ∀ b, motive (.bool b))
  (number : ∀ n, motive (.number n)) (string : ∀ s, motive (.string s))
  (array : ∀ items, (∀ t ∈ items, motive t) → motive (.array items))
  (object : ∀ members, (∀ m ∈ members, motive m.2) → motive (.object members))

include null bool number string array object

/-- Induction over trees, in the same way. -/
@[elab_as_elim, induction_eliminator]
theorem Tree.induction (t : Tree) : motive t :=
  match t with
  | .null => null
  | .bool b => bool b
  | .number n => number n
  | .string s => string s
  | .array items => array items fun t _ => Tree.induction t
  | .object members => object members fun m _ => Tree.induction m.2
termination_by sizeOf t
decreasing_by
  · have := List.sizeOf_lt_of_mem ‹t ∈ items›
    simp only [Tree.array.sizeOf_spec]
    omega
  · obtain ⟨name, t⟩ := m
    have := List.sizeOf_lt_of_mem ‹(name, t) ∈ members›
    simp only [Tree.object.sizeOf_spec, Prod.mk.sizeOf_spec] at this ⊢
    omega

end

/-! ## Well-formed values -/

theorem wellFormedItems_iff (items : List Json) :
    WellFormedItems items ↔ ∀ v ∈ items, v.WellFormed := by
  induction items with
  | nil => simp [WellFormedItems]
  | cons v rest ih => simp [WellFormedItems, ih]

theorem wellFormedMembers_iff (members : List (String × Json)) :
    WellFormedMembers members ↔ ∀ m ∈ members, m.2.WellFormed := by
  induction members with
  | nil => simp [WellFormedMembers]
  | cons m rest ih => simp [WellFormedMembers, ih]

theorem wellFormed_array {items : List Json} :
    WellFormed (.array items) ↔ ∀ v ∈ items, v.WellFormed := wellFormedItems_iff items

theorem wellFormed_object {members : List (String × Json)} :
    WellFormed (.object members) ↔ ByName.Sorted members ∧ ∀ m ∈ members, m.2.WellFormed :=
  and_congr_right fun _ => wellFormedMembers_iff members

theorem wellFormed_ofMembers {members : List (String × Json)} (h : ∀ m ∈ members, m.2.WellFormed) :
    (ofMembers members).WellFormed :=
  wellFormed_object.mpr
    ⟨ByName.sorted_ofList members, fun m hm => h m (ByName.mem_of_mem_ofList hm)⟩

/-! ## Depth -/

theorem depthItems_le {items : List Json} {n : Nat} :
    depthItems items ≤ n ↔ ∀ v ∈ items, v.depth ≤ n := by
  induction items with
  | nil => simp [depthItems]
  | cons v rest ih => rw [depthItems, Nat.max_le, ih, List.forall_mem_cons]

theorem depthMembers_le {members : List (String × Json)} {n : Nat} :
    depthMembers members ≤ n ↔ ∀ m ∈ members, m.2.depth ≤ n := by
  induction members with
  | nil => simp [depthMembers]
  | cons m rest ih => rw [depthMembers, Nat.max_le, ih, List.forall_mem_cons]

theorem depth_array {items : List Json} {room : Nat} :
    depth (.array items) ≤ room + 1 ↔ ∀ v ∈ items, v.depth ≤ room := by
  rw [depth, Nat.succ_le_succ_iff, depthItems_le]

theorem depth_object {members : List (String × Json)} {room : Nat} :
    depth (.object members) ≤ room + 1 ↔ ∀ m ∈ members, m.2.depth ≤ room := by
  rw [depth, Nat.succ_le_succ_iff, depthMembers_le]

/-! ## Values of trees -/

namespace Tree

/-- The values of items are the values of each of them. -/
theorem valueItems?_eq_some {room : Nat} {items : List Tree} {vs : List Json} :
    valueItems? room items = some vs ↔ List.Forall₂ (fun t v => value? room t = some v) items vs := by
  induction items generalizing vs with
  | nil => simp [valueItems?, eq_comm]
  | cons t rest ih =>
    simp only [valueItems?, Option.bind_eq_bind, Option.bind_eq_some_iff, Option.some.injEq,
      List.forall₂_cons_left_iff, ih]
    constructor
    · rintro ⟨v, hv, more, hmore, rfl⟩
      exact ⟨v, more, hv, hmore, rfl⟩
    · rintro ⟨v, more, hv, hmore, rfl⟩
      exact ⟨v, hv, more, hmore, rfl⟩

/-- The names and values of members are those of each of them. -/
theorem valueMembers?_eq_some {room : Nat} {members : List (Option String × Tree)}
    {entries : List (String × Json)} : valueMembers? room members = some entries
      ↔ List.Forall₂ (fun m e => m.1 = some e.1 ∧ value? room m.2 = some e.2) members entries := by
  induction members generalizing entries with
  | nil => simp [valueMembers?, eq_comm]
  | cons m rest ih =>
    simp only [valueMembers?, Option.bind_eq_bind, Option.bind_eq_some_iff, Option.some.injEq,
      List.forall₂_cons_left_iff, ih]
    constructor
    · rintro ⟨name, hname, v, hv, more, hmore, rfl⟩
      exact ⟨(name, v), more, ⟨hname, hv⟩, hmore, rfl⟩
    · rintro ⟨⟨name, v⟩, more, ⟨hname, hv⟩, hmore, rfl⟩
      exact ⟨name, hname, v, hv, more, hmore, rfl⟩

theorem wellFormed_of_number? {n : Number.Numeral} {m : Json.Number} (h : number? n = some m) :
    WellFormed (.number m) := by
  unfold number? at h
  dsimp only at h
  generalize (if n.negative = true then -(n.coefficient : Int) else n.coefficient) = value at h
  split at h
  · rename_i hint
    rw [← Option.some.inj h]
    simp only [Bool.and_eq_true] at hint
    exact hint.1.2
  · obtain ⟨d, _, rfl⟩ := Option.map_eq_some_iff.mp h
    trivial

/-- The value of a tree is well-formed and no deeper than the room it was given. -/
theorem wellFormed_of_value? {t : Tree} {room : Nat} {v : Json} (h : value? room t = some v) :
    v.WellFormed ∧ v.depth ≤ room := by
  induction t generalizing room v with
  | null =>
    rw [← Option.some.inj h]
    exact ⟨trivial, Nat.zero_le _⟩
  | bool b =>
    rw [← Option.some.inj h]
    exact ⟨trivial, Nat.zero_le _⟩
  | number n =>
    obtain ⟨m, hm, rfl⟩ := Option.map_eq_some_iff.mp h
    exact ⟨wellFormed_of_number? hm, Nat.zero_le _⟩
  | string s =>
    obtain ⟨text, _, rfl⟩ := Option.map_eq_some_iff.mp h
    exact ⟨trivial, Nat.zero_le _⟩
  | array items ih =>
    cases room with
    | zero => exact absurd h (by simp [value?])
    | succ room =>
      obtain ⟨vs, hvs, rfl⟩ := Option.map_eq_some_iff.mp h
      have hitems : ∀ v ∈ vs, v.WellFormed ∧ v.depth ≤ room := by
        intro v hv
        obtain ⟨t, ht, hvalue⟩ := exists_left_of_forall₂ (valueItems?_eq_some.mp hvs) hv
        exact ih t ht hvalue
      exact ⟨wellFormed_array.mpr fun v hv => (hitems v hv).1,
        depth_array.mpr fun v hv => (hitems v hv).2⟩
  | object members ih =>
    cases room with
    | zero => exact absurd h (by simp [value?])
    | succ room =>
      obtain ⟨entries, hentries, rfl⟩ := Option.map_eq_some_iff.mp h
      have hmembers : ∀ e ∈ ByName.ofList entries, e.2.WellFormed ∧ e.2.depth ≤ room := by
        intro e he
        obtain ⟨m, hm, _, hvalue⟩ := exists_left_of_forall₂ (valueMembers?_eq_some.mp hentries)
          (ByName.mem_of_mem_ofList he)
        exact ih m hm hvalue
      exact ⟨wellFormed_object.mpr ⟨ByName.sorted_ofList entries, fun e he => (hmembers e he).1⟩,
        depth_object.mpr fun e he => (hmembers e he).2⟩

end Tree

/-- **A value that was read is well-formed and of bounded depth.** -/
theorem wellFormed_of_read? {text : String} {v : Json} (h : Json.read? text = some v) :
    v.WellFormed ∧ v.depth ≤ Tree.maxDepth := by
  simp only [Json.read?, Option.bind_eq_bind, Option.bind_eq_some_iff] at h
  obtain ⟨t, _, hvalue⟩ := h
  exact Tree.wellFormed_of_value? hvalue

end Json

end AuditTrail
