import AuditTrail.Proofs.Json.Reading
import AuditTrail.Proofs.Json.Sameness

/-!
# Canonical text can be decoded

The canonical text of a value is a text of the grammar, and reading it gives the value with every
number read from its canonical numeral (`read?_canonical`). That value is the same as the first up to
the spelling of numbers, and values that are the same in this way have one canonical tree. So

> two values have the same canonical text exactly if they are the same up to numbers
> (`canonical_eq_iff`).

The order of members is the one thing that is not handed down from the parts to the whole: members
are written in the order of their UTF-16 code units and kept in the order of their code points. The
reader puts them back (`ByName.ofList_of_perm`).
-/

namespace AuditTrail.Json

/-- The number that is read from the canonical numeral of a number. -/
def Number.reread (n : Json.Number) : Json.Number := (Tree.number? (canonicalNumeral n)).getD n

/-- The value that is read from the canonical text of a value. -/
def reread (v : Json) : Json := v.mapNumbers Number.reread

/-! ## Canonical trees -/

theorem canonicalItems_eq (items : List Json) : canonicalItems items = items.map canonicalTree := by
  induction items with
  | nil => rfl
  | cons v rest ih => rw [canonicalItems, ih, List.map_cons]

theorem canonicalMembers_eq (members : List (String × Json)) :
    canonicalMembers members = members.map fun m => (m.1, m.2.canonicalTree) := by
  induction members with
  | nil => rfl
  | cons m rest ih => rw [canonicalMembers, ih, List.map_cons]

/-- Members in canonical order. -/
def inCanonicalOrder (members : List (String × Json)) : List (String × Json) :=
  members.mergeSort fun a b => nameLe a.1 b.1

theorem inCanonicalOrder_perm (members : List (String × Json)) :
    (inCanonicalOrder members).Perm members := List.mergeSort_perm _ _

theorem canonicalTree_object (members : List (String × Json)) :
    canonicalTree (.object members)
      = .object ((inCanonicalOrder members).map fun m => (some m.1, m.2.canonicalTree)) := by
  have hsort : sortMembers (members.map fun m => (m.1, m.2.canonicalTree))
      = (inCanonicalOrder members).map fun m => (m.1, m.2.canonicalTree) := by
    unfold sortMembers inCanonicalOrder
    rw [List.map_mergeSort]
    intros
    rfl
  rw [canonicalTree, canonicalMembers_eq, hsort, List.map_map]
  rfl

/-- Members that are in canonical order stay where they are. -/
theorem canonicalTree_object_of_sorted {members : List (String × Json)}
    (h : members.Pairwise fun a b => nameLe a.1 b.1) :
    canonicalTree (.object members)
      = .object (members.map fun m => (some m.1, m.2.canonicalTree)) := by
  rw [canonicalTree_object, inCanonicalOrder, List.mergeSort_of_pairwise h]

theorem writable_canonicalTree {v : Json} (h : v.WellFormed) : v.canonicalTree.Writable := by
  induction v with
  | null => trivial
  | bool b => trivial
  | number n => exact written_canonicalNumeral h
  | string s => rfl
  | array items ih =>
    rw [canonicalTree, canonicalItems_eq]
    refine (Tree.writableItems_iff _).mpr ?_
    intro t ht
    obtain ⟨v, hv, rfl⟩ := List.mem_map.mp ht
    exact ih v hv (wellFormed_array.mp h v hv)
  | object members ih =>
    rw [canonicalTree_object]
    refine (Tree.writableMembers_iff _).mpr ?_
    intro e he
    obtain ⟨m, hm, rfl⟩ := List.mem_map.mp he
    have hmem := (inCanonicalOrder_perm members).mem_iff.mp hm
    exact ⟨rfl, ih m hmem ((wellFormed_object.mp h).2 m hmem)⟩

/-- The canonical tree sees the doubles that numbers denote and nothing else of them. -/
theorem canonicalTree_inDoubles {v : Json} (h : v.WellFormed) :
    (v.mapNumbers Number.inDoubles).canonicalTree = v.canonicalTree := by
  induction v with
  | null => rfl
  | bool b => rfl
  | number n => exact congrArg Tree.number (canonicalNumeral_inDoubles h)
  | string s => rfl
  | array items ih =>
    rw [mapNumbers_array, canonicalTree, canonicalTree, canonicalItems_eq, canonicalItems_eq,
      List.map_map]
    congr 1
    exact List.map_congr_left fun v hv => ih v hv (wellFormed_array.mp h v hv)
  | object members ih =>
    rw [mapNumbers_object, canonicalTree, canonicalTree, canonicalMembers_eq, canonicalMembers_eq,
      List.map_map]
    congr 3
    refine List.map_congr_left fun m hm => ?_
    exact congrArg (Prod.mk m.1) (ih m hm ((wellFormed_object.mp h).2 m hm))

theorem SameUpToNumbers.canonicalTree_eq {a b : Json} (ha : a.WellFormed) (hb : b.WellFormed)
    (h : SameUpToNumbers a b) : a.canonicalTree = b.canonicalTree := by
  rw [← canonicalTree_inDoubles ha, ← canonicalTree_inDoubles hb]
  exact congrArg canonicalTree h

/-! ## Reading back -/

theorem number?_canonicalNumeral {n : Json.Number} (h : WellFormed (.number n)) :
    Tree.number? (canonicalNumeral n) = some n.reread ∧ n.reread.inDoubles = n.inDoubles := by
  obtain ⟨d, hd, hplain, hnumeral⟩ := exists_inDoubles h
  obtain ⟨m, hm, hsame⟩ := number?_canonicalDouble d
  have hreread : n.reread = m := by rw [Number.reread, hnumeral, hm, Option.getD_some]
  rw [hreread, hnumeral, hd, hsame, hplain]
  exact ⟨hm, rfl⟩

theorem wellFormed_reread_number {n : Json.Number} (h : WellFormed (.number n)) :
    WellFormed (.number n.reread) :=
  Tree.wellFormed_of_number? (number?_canonicalNumeral h).1

theorem wellFormed_reread {v : Json} (h : v.WellFormed) : v.reread.WellFormed :=
  wellFormed_mapNumbers (fun _ => wellFormed_reread_number) h

/-- What is read back is the same up to the spelling of numbers. -/
theorem sameUpToNumbers_reread {v : Json} (h : v.WellFormed) : SameUpToNumbers v.reread v := by
  unfold SameUpToNumbers reread
  rw [mapNumbers_mapNumbers]
  exact mapNumbers_congr (fun n hn => (number?_canonicalNumeral hn).2) h

theorem Tree.valueItems?_map {α : Type} {room : Nat} {tree : α → Tree} {value : α → Json}
    {items : List α} (h : ∀ a ∈ items, value? room (tree a) = some (value a)) :
    valueItems? room (items.map tree) = some (items.map value) := by
  rw [valueItems?_eq_some, List.forall₂_map_left_iff, List.forall₂_map_right_iff, List.forall₂_same]
  exact h

theorem Tree.valueMembers?_map {α : Type} {room : Nat} (name : α → String) {tree : α → Tree}
    {value : α → Json} {members : List α}
    (h : ∀ a ∈ members, value? room (tree a) = some (value a)) :
    valueMembers? room (members.map fun a => (some (name a), tree a))
      = some (members.map fun a => (name a, value a)) := by
  rw [valueMembers?_eq_some, List.forall₂_map_left_iff, List.forall₂_map_right_iff, List.forall₂_same]
  exact fun a ha => ⟨rfl, h a ha⟩

/-- The value of a canonical tree. -/
theorem value?_canonicalTree {v : Json} {room : Nat} (h : v.WellFormed) (hdepth : v.depth ≤ room) :
    v.canonicalTree.value? room = some v.reread := by
  induction v generalizing room with
  | null => rfl
  | bool b => rfl
  | number n =>
    rw [canonicalTree, Tree.value?, (number?_canonicalNumeral h).1]
    rfl
  | string s => rfl
  | array items ih =>
    obtain ⟨inner, rfl⟩ : ∃ inner, room = inner + 1 := Nat.exists_eq_add_of_le' (by
      rw [depth] at hdepth; omega)
    have hitems : ∀ v ∈ items, v.canonicalTree.value? inner = some v.reread := fun v hv =>
      ih v hv (wellFormed_array.mp h v hv) (depth_array.mp hdepth v hv)
    rw [canonicalTree, canonicalItems_eq, Tree.value?, Tree.valueItems?_map hitems, reread, mapNumbers_array]
    rfl
  | object members ih =>
    obtain ⟨inner, rfl⟩ : ∃ inner, room = inner + 1 := Nat.exists_eq_add_of_le' (by
      rw [depth] at hdepth; omega)
    obtain ⟨hsorted, hwell⟩ := wellFormed_object.mp h
    have hperm := inCanonicalOrder_perm members
    have hmembers : ∀ m ∈ inCanonicalOrder members,
        m.2.canonicalTree.value? inner = some m.2.reread := by
      intro m hm
      have hmem := hperm.mem_iff.mp hm
      exact ih m hmem (hwell m hmem) (depth_object.mp hdepth m hmem)
    -- The members come back in canonical order, and the table puts them into its own.
    have htable : ByName.ofList ((inCanonicalOrder members).map fun m => (m.1, m.2.reread))
        = members.map fun m => (m.1, m.2.reread) :=
      ByName.ofList_of_perm (ByName.sorted_map _ hsorted) (hperm.map _)
    rw [canonicalTree_object, Tree.value?, Tree.valueMembers?_map Prod.fst hmembers,
      Option.map_some, ofMembers, htable, reread, mapNumbers_object]
    rfl

theorem read?_chars_canonical {v : Json} (h : v.WellFormed) :
    Tree.read? v.canonical = some v.canonicalTree :=
  Tree.read?_chars (writable_canonicalTree h)

/-- **Canonical text reads back.** -/
theorem read?_canonical {v : Json} (h : v.WellFormed) (hdepth : v.depth ≤ Tree.maxDepth) :
    Json.read? v.canonical = some v.reread := by
  unfold Json.read?
  rw [read?_chars_canonical h, Option.bind_eq_bind, Option.bind_some]
  exact value?_canonicalTree h hdepth

/-- **Two values have one canonical text exactly if they are the same up to numbers.** -/
theorem canonical_eq_iff {a b : Json} (ha : a.WellFormed) (hb : b.WellFormed) :
    a.canonical = b.canonical ↔ SameUpToNumbers a b := by
  constructor
  · intro h
    have htree : a.canonicalTree = b.canonicalTree := by
      have hread := read?_chars_canonical ha
      rw [h, read?_chars_canonical hb] at hread
      exact (Option.some.inj hread).symm
    -- One tree is read as one value, if the room is enough for both.
    have hvalue := value?_canonicalTree ha (Nat.le_max_left a.depth b.depth)
    rw [htree, value?_canonicalTree hb (Nat.le_max_right a.depth b.depth)] at hvalue
    have hsame := sameUpToNumbers_reread ha
    rw [← Option.some.inj hvalue] at hsame
    exact hsame.symm.trans (sameUpToNumbers_reread hb)
  · intro h
    rw [canonical, canonical, h.canonicalTree_eq ha hb]

/-- **Canonical text can be decoded, and values that differ in more than the spelling of numbers
never share it.** -/
theorem canonical_faithful :
    (∀ text v, Json.read? text = some v →
      ∃ v', Json.read? v.canonical = some v' ∧ SameUpToNumbers v' v ∧ v'.canonical = v.canonical)
    ∧ ∀ a b : Json, a.WellFormed → b.WellFormed →
      (a.canonical = b.canonical ↔ SameUpToNumbers a b) := by
  constructor
  · intro text v hread
    obtain ⟨hwell, hdepth⟩ := wellFormed_of_read? hread
    have hsame := sameUpToNumbers_reread hwell
    refine ⟨v.reread, read?_canonical hwell hdepth, hsame, ?_⟩
    exact (canonical_eq_iff (wellFormed_reread hwell) hwell).mpr hsame
  · intro a b ha hb
    exact canonical_eq_iff ha hb

/-- A double that is read back as an integer, a negative zero, and an integer that is no double. -/
theorem canonical_faithful_spellings :
    ∃ v v' w, Json.read? "[1e19,-0.0,9007199254740993,\"\\u0078\"]" = some v
      ∧ Json.read? "[10000000000000000000,0,9007199254740992.0,\"x\"]" = some w
      ∧ Json.read? v.canonical = some v' ∧ SameUpToNumbers v' v ∧ v'.canonical = v.canonical
      ∧ v.canonical = w.canonical ∧ SameUpToNumbers v w := by
  obtain ⟨v, hv⟩ : ∃ v, Json.read? "[1e19,-0.0,9007199254740993,\"\\u0078\"]" = some v :=
    Option.isSome_iff_exists.mp (by decide +kernel)
  obtain ⟨w, hw⟩ : ∃ w, Json.read? "[10000000000000000000,0,9007199254740992.0,\"x\"]" = some w :=
    Option.isSome_iff_exists.mp (by decide +kernel)
  have htexts : (Json.read? "[1e19,-0.0,9007199254740993,\"\\u0078\"]").map (·.canonicalTree.chars)
      = (Json.read? "[10000000000000000000,0,9007199254740992.0,\"x\"]").map (·.canonicalTree.chars) := by
    decide +kernel
  rw [hv, hw, Option.map_some, Option.map_some, Option.some.injEq] at htexts
  have hcanonical : v.canonical = w.canonical := congrArg String.ofList htexts
  obtain ⟨v', hread, hsame, htext⟩ := canonical_faithful.1 _ v hv
  have hwell := (wellFormed_of_read? hv).1
  have hequal := (canonical_faithful.2 v w hwell (wellFormed_of_read? hw).1).mp hcanonical
  exact ⟨v, v', w, hv, hw, hread, hsame, htext, hcanonical, hequal⟩

end AuditTrail.Json
