import AuditTrail.Json.Record
import AuditTrail.Proofs.Json.Wire

/-!
# Records read back

A record is written as an object that has its fields as members. What is found for a field is then what was
written for it, since the names of fields differ (`record?_ofFields`). A reader gives up where containers
stand inside each other too deep, so that a record is read back is only said where there is room for its tree
(`Reads`). Each container takes one place of the room, and the trees inside it have to fit into the rest.
-/

namespace AuditTrail.Json.Tree

mutual

/-- How many containers stand inside each other in a tree. -/
def depth : Tree → Nat
  | .array items => depthItems items + 1
  | .object members => depthMembers members + 1
  | _ => 0
termination_by structural t => t

/-- The depth of the deepest item. -/
def depthItems : List Tree → Nat
  | [] => 0
  | t :: rest => max (depth t) (depthItems rest)
termination_by structural t => t

/-- The depth of the deepest member. -/
def depthMembers : List (Option String × Tree) → Nat
  | [] => 0
  | (_, t) :: rest => max (depth t) (depthMembers rest)
termination_by structural t => t

end

/-! ## Depth -/

theorem depthItems_le {items : List Tree} {n : Nat} :
    depthItems items ≤ n ↔ ∀ t ∈ items, t.depth ≤ n := by
  induction items with
  | nil => simp [depthItems]
  | cons t rest ih => rw [depthItems, Nat.max_le, ih, List.forall_mem_cons]

theorem depthMembers_le {members : List (Option String × Tree)} {n : Nat} :
    depthMembers members ≤ n ↔ ∀ m ∈ members, m.2.depth ≤ n := by
  induction members with
  | nil => simp [depthMembers]
  | cons m rest ih => rw [depthMembers, Nat.max_le, ih, List.forall_mem_cons]

/-- A container takes one place. -/
theorem depth_array {items : List Tree} {room : Nat} :
    depth (.array items) ≤ room ↔ ∃ inner, room = inner + 1 ∧ ∀ t ∈ items, t.depth ≤ inner := by
  cases room with
  | zero => simp [depth]
  | succ room => simp [depth, depthItems_le]

theorem depth_object {members : List (Option String × Tree)} {room : Nat} :
    depth (.object members) ≤ room ↔ ∃ inner, room = inner + 1 ∧ ∀ m ∈ members, m.2.depth ≤ inner := by
  cases room with
  | zero => simp [depth]
  | succ room => simp [depth, depthMembers_le]

theorem depth_ofFields {fields : List (String × Tree)} {room : Nat} :
    (ofFields fields).depth ≤ room ↔ ∃ inner, room = inner + 1 ∧ ∀ f ∈ fields, f.2.depth ≤ inner := by
  rw [ofFields, depth_object]
  simp only [List.forall_mem_map]

/-- The tree of a value is as deep as the value. -/
theorem depth_wireTree {v : Json} {room : Nat} : v.wireTree.depth ≤ room ↔ v.depth ≤ room := by
  induction v generalizing room with
  | null => rfl
  | bool b => rfl
  | number n => rfl
  | string s => rfl
  | array items ih =>
    rw [wireTree, wireItems_eq, depth_array]
    simp only [List.forall_mem_map]
    cases room with
    | zero => simp [Json.depth]
    | succ room =>
      rw [Json.depth_array, ← forall₂_congr fun v hv => ih v hv]
      simp
  | object members ih =>
    rw [wireTree, wireMembers_eq, depth_object]
    simp only [List.forall_mem_map]
    cases room with
    | zero => simp [Json.depth]
    | succ room =>
      rw [Json.depth_object, ← forall₂_congr fun m hm => ih m hm]
      simp

/-! ## Fields -/

theorem filter_absent {fields : List (String × Tree)} {name : String}
    (h : name ∉ fields.map Prod.fst) :
    (fields.map fun f => (some f.1, f.2)).filter (fun m => m.1 == some name) = [] := by
  rw [List.filter_eq_nil_iff]
  simp only [List.forall_mem_map, beq_iff_eq, Option.some.injEq]
  exact fun f hf heq => h (List.mem_map.mpr ⟨f, hf, heq⟩)

theorem memberOnce?_absent {fields : List (String × Tree)} {name : String}
    (h : name ∉ fields.map Prod.fst) :
    memberOnce? name (fields.map fun f => (some f.1, f.2)) = some none := by
  rw [memberOnce?, filter_absent h]

/-- A name among others is the name of one field. -/
theorem memberOnce?_of_mem {fields : List (String × Tree)} (hnames : (fields.map Prod.fst).Nodup)
    {f : String × Tree} (hf : f ∈ fields) :
    memberOnce? f.1 (fields.map fun f => (some f.1, f.2)) = some (some f.2) := by
  obtain ⟨before, after, rfl⟩ := List.append_of_mem hf
  rw [List.map_append, List.map_cons, List.nodup_append, List.nodup_cons] at hnames
  obtain ⟨_, ⟨hafter, _⟩, hbefore⟩ := hnames
  -- The names differ, so the field is found neither before its place nor after it.
  have hbefore : f.1 ∉ before.map Prod.fst := fun hmem => hbefore _ hmem _ List.mem_cons_self rfl
  rw [memberOnce?, List.map_append, List.map_cons, List.filter_append, filter_absent hbefore,
    List.nil_append, List.filter_cons_of_pos (by simp), filter_absent hafter]

/-- **What is found for a field is what was written for it**, and there is room for it. -/
theorem record?_ofFields {fields : List (String × Tree)} (names : List String) {room : Nat}
    (hnames : (fields.map Prod.fst).Nodup) (hroom : (ofFields fields).depth ≤ room) :
    ∃ inner field, (ofFields fields).record? names room = some (inner, field)
      ∧ (∀ f ∈ fields, f.2.depth ≤ inner ∧ field f.1 = some (some f.2))
      ∧ ∀ name ∉ fields.map Prod.fst, field name = some none := by
  obtain ⟨inner, rfl, hfields⟩ := depth_ofFields.mp hroom
  refine ⟨inner, fun name => memberOnce? name (fields.map fun f => (some f.1, f.2)), ?_,
    fun f hf => ⟨hfields f hf, memberOnce?_of_mem hnames hf⟩, fun _ => memberOnce?_absent⟩
  rw [ofFields, record?, enter?, Option.bind_eq_bind, Option.bind_some, if_pos (by simp)]

/-! ## Readers -/

/-- A reader gets a thing from a tree, wherever there is room for the tree. -/
def Reads {α : Type} (read : (room : Nat) → Tree → Option α) (t : Tree) (a : α) : Prop :=
  ∀ room, t.depth ≤ room → read room t = some a

@[simp] theorem text?_ofText (s : String) : text? (ofText s) = some s := rfl

@[simp] theorem nullable?_ofText? (s : Option String) : nullable? text? (ofText? s) = some s := by
  cases s <;> rfl

section

variable {α : Type} {read : (room : Nat) → Tree → Option α}

@[simp] theorem orElse?_some (default : α) (read : Tree → Option α) (t : Tree) :
    orElse? default read (some (some t)) = read t := rfl

@[simp] theorem orElse?_none (default : α) (read : Tree → Option α) :
    orElse? default read (some none) = some default := rfl

theorem mapM_map {β : Type} {f : β → Option α} {tree : α → β} {items : List α}
    (h : ∀ a ∈ items, f (tree a) = some a) : (items.map tree).mapM f = some items := by
  induction items with
  | nil => rfl
  | cons a rest ih =>
    obtain ⟨hfirst, hrest⟩ := List.forall_mem_cons.mp h
    rw [List.map_cons, List.mapM_cons, hfirst, ih hrest]
    rfl

theorem Reads.list {tree : α → Tree} {items : List α} (h : ∀ a ∈ items, Reads read (tree a) a) :
    Reads (list? read) (.array (items.map tree)) items := by
  intro room hroom
  obtain ⟨inner, rfl, hitems⟩ := depth_array.mp hroom
  rw [List.forall_mem_map] at hitems
  rw [list?, enter?, Option.bind_eq_bind, Option.bind_some]
  exact mapM_map fun a ha => h a ha inner (hitems a ha)

theorem Reads.value {v : Json} (h : v.WellFormed) : Reads value? v.wireTree v := by
  intro room hroom
  exact value?_wireTree h (depth_wireTree.mp hroom)

theorem Reads.members {ms : Members} (h : Json.WellFormed (.object ms)) :
    Reads members? (wireTree (.object ms)) ms := by
  intro room hroom
  have hvalue := Reads.value h room hroom
  obtain ⟨inner, rfl, _⟩ := depth_object.mp hroom
  rw [wireTree, value?] at hvalue
  obtain ⟨entries, hentries, hobject⟩ := Option.map_eq_some_iff.mp hvalue
  rw [wireTree, members?, enter?, Option.bind_eq_bind, Option.bind_some, hentries, Option.map_some,
    Json.object.inj hobject]

/-- A record that can be written is read from its text. -/
theorem readAs?_text {t : Tree} {a : α} (h : Reads read t a) (hwritable : t.Writable)
    (hdepth : t.depth ≤ maxDepth) : readAs? read t.text = some a := by
  rw [readAs?, Tree.text, read?_chars hwritable, Option.bind_eq_bind, Option.bind_some]
  exact h maxDepth hdepth

end

/-! ## Writing -/

theorem writable_ofFields {fields : List (String × Tree)} :
    (ofFields fields).Writable ↔ ∀ f ∈ fields, f.2.Writable := by
  show WritableMembers _ ↔ _
  rw [writableMembers_iff]
  simp only [List.forall_mem_map, Option.isSome_some, true_and]

theorem writable_array {items : List Tree} : (array items).Writable ↔ ∀ t ∈ items, t.Writable :=
  writableItems_iff items

theorem writable_ofText (s : String) : (ofText s).Writable := rfl

theorem writable_ofText? (s : Option String) : (ofText? s).Writable := by
  cases s with
  | none => trivial
  | some text => rfl

end AuditTrail.Json.Tree
