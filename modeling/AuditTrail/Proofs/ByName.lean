import AuditTrail.ByName

/-!
# Tables are determined by what they hold

A table built from entries is in order, whatever order the entries come in (`sorted_ofList`), and
holds nothing but these entries. The fact everything about permuted members leans on is

> entries that are a rearrangement of a table give that table (`ofList_of_perm`),

so a reader may meet the members of an object in any order. A table in order has each name once, so
inserting its entries never replaces one, and two tables in order that are rearrangements of each
other are equal.
-/

namespace AuditTrail.ByName

variable {α : Type} {name : String} {thing : α} {table : ByName α}

/-! ## Inserting -/

theorem mem_insert {e : String × α} : ∀ {table : ByName α},
    e ∈ insert name thing table → e = (name, thing) ∨ e ∈ table
  | [], h => by simpa [insert] using h
  | (n, a) :: rest, h => by
    unfold insert at h
    split at h
    · exact List.mem_cons.mp h
    · split at h
      · rcases List.mem_cons.mp h with rfl | hrest
        · exact Or.inl rfl
        · exact Or.inr (List.mem_cons_of_mem _ hrest)
      · rcases List.mem_cons.mp h with rfl | hrest
        · exact Or.inr (List.mem_cons_self)
        · exact (mem_insert hrest).imp_right (List.mem_cons_of_mem _)

theorem sorted_insert : ∀ {table : ByName α}, Sorted table → Sorted (insert name thing table)
  | [], _ => List.pairwise_singleton _ _
  | (n, a) :: rest, h => by
    obtain ⟨hfirst, hrest⟩ := List.pairwise_cons.mp h
    unfold insert
    split
    · rename_i hlt
      refine List.pairwise_cons.mpr ⟨fun e he => ?_, h⟩
      rcases List.mem_cons.mp he with rfl | he
      · exact hlt
      · exact String.lt_trans hlt (hfirst e he)
    · rename_i hnlt
      split
      · rename_i heq
        exact List.pairwise_cons.mpr ⟨fun e he => heq ▸ hfirst e he, hrest⟩
      · rename_i hne
        -- The new name is neither less nor equal, so it belongs further back.
        have hlt : n < name := by
          refine Decidable.byContradiction fun hnlt' => hne ?_
          exact String.le_antisymm (String.not_lt.mp hnlt') (String.not_lt.mp hnlt)
        refine List.pairwise_cons.mpr ⟨fun e he => ?_, sorted_insert hrest⟩
        rcases mem_insert he with rfl | he
        · exact hlt
        · exact hfirst e he

/-- A name that does not occur is added, and nothing else happens. -/
theorem insert_perm : ∀ {table : ByName α}, name ∉ names table →
    (insert name thing table).Perm ((name, thing) :: table)
  | [], _ => List.Perm.refl _
  | (n, a) :: rest, h => by
    have hne : name ≠ n := fun heq => h (by simp [names, heq])
    have hrest : name ∉ names rest := fun hmem => h (List.mem_cons_of_mem _ hmem)
    unfold insert
    split
    · exact List.Perm.refl _
    · exact ((insert_perm hrest).cons _).trans (List.Perm.swap _ _ _)

/-! ## Building from entries -/

theorem sorted_foldl : ∀ (entries : List (String × α)) {table : ByName α}, Sorted table →
    Sorted (entries.foldl (fun table entry => insert entry.1 entry.2 table) table)
  | [], _, h => h
  | _ :: rest, _, h => sorted_foldl rest (sorted_insert h)

/-- A table built from entries is in order. -/
theorem sorted_ofList (entries : List (String × α)) : Sorted (ofList entries) :=
  sorted_foldl entries List.Pairwise.nil

theorem mem_foldl {e : String × α} : ∀ (entries : List (String × α)) {table : ByName α},
    e ∈ entries.foldl (fun table entry => insert entry.1 entry.2 table) table →
      e ∈ entries ∨ e ∈ table
  | [], _, h => Or.inr h
  | first :: rest, table, h => by
    rcases mem_foldl rest h with hmem | hmem
    · exact Or.inl (List.mem_cons_of_mem _ hmem)
    · rcases mem_insert hmem with rfl | hmem
      · exact Or.inl List.mem_cons_self
      · exact Or.inr hmem

/-- A table holds nothing but the entries it was built from. -/
theorem mem_of_mem_ofList {entries : List (String × α)} {e : String × α} (h : e ∈ ofList entries) :
    e ∈ entries := by
  rcases mem_foldl entries h with hmem | hmem
  · exact hmem
  · exact absurd hmem List.not_mem_nil

theorem foldl_perm : ∀ (entries : List (String × α)) {table : ByName α},
    (names (entries ++ table)).Nodup →
      (entries.foldl (fun table entry => insert entry.1 entry.2 table) table).Perm
        (entries ++ table)
  | [], _, _ => List.Perm.refl _
  | (n, a) :: rest, table, h => by
    obtain ⟨hfresh, hnodup⟩ := List.nodup_cons.mp h
    -- The names still to come are not in the table, so each insertion adds one entry.
    have hn : n ∉ names table := fun hmem => hfresh (by simp_all [names])
    have hinsert : (insert n a table).Perm ((n, a) :: table) := insert_perm hn
    have hmoved : (rest ++ insert n a table).Perm ((n, a) :: (rest ++ table)) :=
      (hinsert.append_left rest).trans List.perm_middle
    have hnames : (names (rest ++ insert n a table)).Nodup := (hmoved.map Prod.fst).nodup_iff.mpr h
    exact (foldl_perm rest hnames).trans hmoved

theorem nodup_names (h : Sorted table) : (names table).Nodup := by
  refine List.pairwise_map.mpr (List.Pairwise.imp (fun hlt heq => ?_) h)
  rw [heq] at hlt
  exact String.lt_irrefl _ hlt

theorem eq_of_perm {table' : ByName α} (h : Sorted table) (h' : Sorted table')
    (hperm : table.Perm table') : table = table' :=
  List.Perm.eq_of_pairwise
    (fun _ _ _ _ hlt hgt => absurd (String.lt_trans hlt hgt) (String.lt_irrefl _)) h h' hperm

/-- **Entries that are a rearrangement of a table give that table.** -/
theorem ofList_of_perm {entries : List (String × α)} (h : Sorted table)
    (hperm : entries.Perm table) : ofList entries = table := by
  have hnodup : (names (entries ++ [])).Nodup := by
    rw [List.append_nil]
    exact (hperm.map Prod.fst).nodup_iff.mpr (nodup_names h)
  have hentries := foldl_perm entries hnodup
  rw [List.append_nil] at hentries
  exact eq_of_perm (sorted_ofList entries) h (hentries.trans hperm)

theorem sorted_map {β : Type} (f : α → β) (h : Sorted table) :
    Sorted (table.map fun entry => (entry.1, f entry.2)) :=
  List.pairwise_map.mpr h

/-! ## Finding -/

theorem find?_cons (key n : String) (a : α) (rest : ByName α) :
    find? key ((n, a) :: rest) = if key = n then some a else find? key rest := by
  unfold find?
  rw [List.lookup_cons]
  by_cases h : key = n
  · simp [h]
  · rw [beq_eq_false_iff_ne.mpr h, if_neg h]

theorem find?_append (key : String) (front back : ByName α) :
    find? key (front ++ back) = (find? key front).or (find? key back) := List.lookup_append

/-- Under the name just inserted the new thing is found, under all others what was found before. -/
theorem find?_insert (key name : String) (thing : α) (table : ByName α) :
    find? key (insert name thing table) = if key = name then some thing else find? key table := by
  induction table with
  | nil => rw [insert, find?_cons]
  | cons entry rest ih =>
    obtain ⟨n, a⟩ := entry
    unfold insert
    split
    · rw [find?_cons]
    · split
      · rename_i hname
        subst hname
        rw [find?_cons, find?_cons]
        split <;> rfl
      · rename_i hname
        rw [find?_cons, ih, find?_cons]
        split
        · rename_i hkey
          rw [if_neg (fun heq => hname (heq.symm.trans hkey))]
        · rfl

theorem find?_foldl (key : String) (entries : List (String × α)) (table : ByName α) :
    find? key (entries.foldl (fun table entry => insert entry.1 entry.2 table) table)
      = (find? key entries.reverse).or (find? key table) := by
  induction entries generalizing table with
  | nil => rfl
  | cons entry rest ih =>
    obtain ⟨n, a⟩ := entry
    rw [List.foldl_cons, ih, find?_insert, List.reverse_cons, find?_append, find?_cons, Option.or_assoc]
    split <;> rfl

/-- Of several entries with one name the last is found. -/
theorem find?_ofList (key : String) (entries : List (String × α)) :
    find? key (ofList entries) = find? key entries.reverse := by
  rw [ofList, find?_foldl]
  exact Option.or_none

/-- **Entries that come later win.** -/
theorem find?_ofList_append (key : String) (front back : List (String × α)) :
    find? key (ofList (front ++ back)) = (find? key (ofList back)).or (find? key (ofList front)) := by
  simp only [find?_ofList, List.reverse_append, find?_append]

/-- A table in order is the one its entries give. -/
theorem ofList_eq_self (h : Sorted table) : ofList table = table := ofList_of_perm h (List.Perm.refl table)

theorem find?_map {β : Type} (f : String → α → β) (name : String) (table : ByName α) :
    find? name (table.map fun (n, a) => (n, f n a)) = (find? name table).map (f name) := by
  induction table with
  | nil => rfl
  | cons entry rest ih =>
    obtain ⟨n, a⟩ := entry
    rw [List.map_cons, find?_cons, find?_cons, ih]
    split
    · rename_i hname
      rw [hname]
      rfl
    · rfl

theorem find?_eq_none : find? name table = none ↔ name ∉ names table := by
  unfold find? names
  rw [List.lookup_eq_none_iff, List.mem_map]
  constructor
  · rintro h ⟨entry, hentry, rfl⟩
    exact absurd rfl (bne_iff_ne.mp (h entry hentry))
  · exact fun h entry hentry => bne_iff_ne.mpr fun heq => h ⟨entry, hentry, heq.symm⟩

theorem has_iff : has name table = true ↔ name ∈ names table := by
  simp [has, names]

theorem has_of_find? (h : find? name table = some thing) :
    has name table = true := by
  obtain ⟨l, r, rfl, _⟩ := List.lookup_eq_some_iff.mp h
  simp [has]

/-- What stands in a table in order is found under its name. -/
theorem find?_of_mem (h : Sorted table) (hmem : (name, thing) ∈ table) :
    find? name table = some thing := by
  obtain ⟨before, after, rfl⟩ := List.append_of_mem hmem
  refine List.lookup_eq_some_iff.mpr ⟨before, after, rfl, fun entry hentry => ?_⟩
  -- The names before it are less, so none of them is the one looked for.
  have hlt := (List.pairwise_append.mp h).2.2 entry hentry (name, thing) List.mem_cons_self
  exact bne_iff_ne.mpr fun heq => String.lt_irrefl _ (heq ▸ hlt)

/-- What can be found in a table in order is what stands in it. -/
theorem exists_find?_iff (h : Sorted table) :
    (∃ name, find? name table = some thing) ↔ thing ∈ table.map Prod.snd := by
  constructor
  · rintro ⟨name, hfound⟩
    obtain ⟨before, after, rfl, _⟩ := List.lookup_eq_some_iff.mp hfound
    simp
  · intro hthing
    obtain ⟨⟨name, found⟩, hmem, rfl⟩ := List.mem_map.mp hthing
    exact ⟨name, find?_of_mem h hmem⟩

/-- A filter by name keeps what stands under a name it keeps. -/
theorem find?_filter {p : String → Bool} (hname : p name = true) (table : ByName α) :
    find? name (table.filter fun entry => p entry.1) = find? name table := by
  induction table with
  | nil => rfl
  | cons entry rest ih =>
    obtain ⟨n, a⟩ := entry
    rw [find?_cons, ← ih, List.filter_cons]
    split
    · rw [find?_cons]
    · rename_i hother
      rw [if_neg fun heq : name = n => hother (heq ▸ hname)]

/-- A filter by name drops what stands under a name it does not keep. -/
theorem find?_filter_eq_none {p : String → Bool} (hname : p name = false) (table : ByName α) :
    find? name (table.filter fun entry => p entry.1) = none := by
  refine List.lookup_eq_none_iff.mpr fun entry hentry => bne_iff_ne.mpr ?_
  rintro rfl
  exact absurd (hname.symm.trans (List.mem_filter.mp hentry).2) (by simp)

theorem sorted_filter {p : String × α → Bool} (h : Sorted table) :
    Sorted (table.filter p) := List.Pairwise.filter p h

theorem sorted_filterMap {β : Type} {f : String → α → Option β} (h : Sorted table) :
    Sorted (table.filterMap fun (n, a) => (f n a).map fun b => (n, b)) := by
  refine List.Pairwise.filterMap _ (fun e e' hlt b hb b' hb' => ?_) h
  obtain ⟨_, _, rfl⟩ := Option.map_eq_some_iff.mp hb
  obtain ⟨_, _, rfl⟩ := Option.map_eq_some_iff.mp hb'
  exact hlt

/-- What is made of a thing is found under its name, if something is. -/
theorem find?_filterMap {β : Type} (f : String → α → Option β) (name : String) (h : Sorted table) :
    find? name (table.filterMap fun (n, a) => (f n a).map fun b => (n, b))
      = (find? name table).bind (f name) := by
  induction table with
  | nil => rfl
  | cons entry rest ih =>
    obtain ⟨n, a⟩ := entry
    obtain ⟨hfresh, _⟩ := List.nodup_cons.mp (nodup_names h)
    obtain ⟨_, hrest⟩ := List.pairwise_cons.mp h
    rw [List.filterMap_cons, find?_cons]
    dsimp only
    cases hfound : f n a with
    | none =>
      rw [Option.map_none, ih hrest]
      split
      · rename_i hname
        -- The name does not come again, so nothing stands in for what was dropped.
        rw [hname, find?_eq_none.mpr hfresh, Option.bind_some, hfound]
        rfl
      · rfl
    | some b =>
      rw [Option.map_some]
      dsimp only
      rw [find?_cons, ih hrest]
      split
      · rename_i hname
        rw [hname, Option.bind_some, hfound]
      · rfl

end AuditTrail.ByName
