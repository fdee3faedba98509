import AuditTrail.Proofs.Json.Grammar
import AuditTrail.Proofs.Json.Value

/-!
# What was read was written

A text that a value was read from is in the grammar (`Tree.writes_of_read?`): nothing that was read is
lost, and what it was read as is one of the trees that the text writes. Only trees that have a value are
spoken of, since the reader also goes over half a surrogate pair, which stands for no text.

A string is the one part that is not read in one go. The half of a pair that the reader carries along is
in the statement about it (`Holds`).
-/

namespace AuditTrail.Json.Tree

/-! ## Strings -/

/-- What a text begins with if a string was read from it. If the first half of a pair came before, it is
the other half. -/
def Holds (held rest : List Char) : Option Nat → List Char → Prop
  | none, text => ∃ written, WritesText held written ∧ text = written ++ '"' :: rest
  | some high, text => ∃ low unit more written, WritesUnit low unit ∧ IsLow low
      ∧ held = pairChar high low :: more ∧ WritesText more written
      ∧ text = unit ++ (written ++ '"' :: rest)

theorem consChar_eq_some {c : Char} {found : Option (Option (List Char) × List Char)}
    {held rest : List Char} : consChar c found = some (some held, rest)
      ↔ ∃ more, found = some (some more, rest) ∧ held = c :: more := by
  cases found with
  | none => simp [consChar]
  | some found =>
    obtain ⟨held', rest'⟩ := found
    cases held' <;> simp [consChar, and_comm, eq_comm]

theorem unpaired_ne_some {found : Option (Option (List Char) × List Char)} {held rest : List Char} :
    unpaired found ≠ some (some held, rest) := by
  cases found <;> simp [unpaired]

/-- A character in front of what a string literal holds. -/
theorem Holds.cons {c : Char} {written text held rest : List Char} (hchar : WritesChar c written)
    (h : ∀ {held}, readString? none text = some (some held, rest) → Holds held rest none text)
    (hread : consChar c (readString? none text) = some (some held, rest)) :
    Holds held rest none (written ++ text) := by
  obtain ⟨more, hmore, rfl⟩ := consChar_eq_some.mp hread
  obtain ⟨others, hothers, rfl⟩ := h hmore
  exact ⟨written ++ others, .cons hchar hothers, (List.append_assoc _ _ _).symm⟩

theorem holds_of_readString? {high : Option Nat} {text held rest : List Char}
    (h : readString? high text = some (some held, rest)) : Holds held rest high text := by
  fun_induction readString? high text generalizing held rest with
  -- The text ends too early, or it goes against the grammar.
  | case1 | case2 | case4 | case11 | case14 => exact absurd h (by simp)
  -- Half a pair was left alone.
  | case6 | case7 | case9 | case12 | case15 => exact absurd h unpaired_ne_some
  | case3 high text hhigh =>
    obtain rfl : high = none := by simpa using hhigh
    simp only [Option.some.injEq, Prod.mk.injEq] at h
    obtain ⟨rfl, rfl⟩ := h
    exact ⟨[], .nil, rfl⟩
  | case5 a b c d text low hlow high hrange ih =>
    obtain ⟨more, hmore, rfl⟩ := consChar_eq_some.mp h
    obtain ⟨written, hwritten, rfl⟩ := ih hmore
    exact ⟨low, _, more, written, .digits hlow, hrange, rfl, hwritten, rfl⟩
  | case8 a b c d text high hhigh hrange ih =>
    -- The first half of a pair is in front of what holds after it.
    obtain ⟨low, unit, more, written, hunit, hlow, rfl, hwritten, rfl⟩ := ih h
    exact ⟨_, .cons (.pair (.digits hhigh) hunit hrange hlow) hwritten, by simp⟩
  | case10 a b c d text unit hunit hhigh hlow ih =>
    exact Holds.cons (.unit (.digits hunit) hhigh hlow) ih h
  | case13 high e text _ c hshort _ hhigh =>
    rename_i ih
    obtain rfl : high = none := by simpa using hhigh
    exact Holds.cons (.short hshort) ih h
  | case16 high c text hquote _ _ hplain _ hhigh =>
    rename_i ih
    obtain rfl : high = none := by simpa using hhigh
    obtain ⟨hslash, hcontrol⟩ := not_or.mp hplain
    exact Holds.cons (.plain hquote hslash hcontrol) ih h

theorem writes_of_readQuoted? {text : String} {chars rest : List Char}
    (h : readQuoted? chars = some (some text, rest)) :
    ∃ written, WritesQuoted text written ∧ chars = written ++ rest := by
  unfold readQuoted? at h
  split at h
  · rename_i chars
    simp only [Option.map_eq_some_iff, Prod.exists, Prod.mk.injEq] at h
    obtain ⟨_, _, hread, ⟨held, rfl, rfl⟩, rfl⟩ := h
    obtain ⟨written, hwritten, rfl⟩ := holds_of_readString? hread
    rw [← String.toList_ofList (l := held)] at hwritten
    exact ⟨_, .quotes hwritten, by simp⟩
  · exact absurd h (by simp)

/-! ## Values -/

theorem exists_blank (text : List Char) :
    ∃ blank, Blank blank ∧ text = blank ++ text.dropWhile isSpace :=
  ⟨text.takeWhile isSpace, fun _ hc => List.mem_takeWhile_imp hc, List.takeWhile_append_dropWhile.symm⟩

/-- A tree that has a value, in some room. -/
def HasValue (t : Tree) : Prop := ∃ room v, t.value? room = some v

theorem HasValue.string {s : Option String} (h : HasValue (.string s)) : ∃ text, s = some text := by
  obtain ⟨room, v, hv⟩ := h
  obtain ⟨text, rfl, _⟩ := Option.map_eq_some_iff.mp hv
  exact ⟨text, rfl⟩

theorem HasValue.items {items : List Tree} (h : HasValue (.array items)) : ∀ t ∈ items, HasValue t := by
  obtain ⟨room, v, hv⟩ := h
  cases room with
  | zero => exact absurd hv (by simp [value?])
  | succ room =>
    obtain ⟨vs, hvs, _⟩ := Option.map_eq_some_iff.mp hv
    intro t ht
    obtain ⟨v, _, hv⟩ := exists_right_of_forall₂ (valueItems?_eq_some.mp hvs) ht
    exact ⟨room, v, hv⟩

theorem HasValue.members {members : List (Option String × Tree)} (h : HasValue (.object members)) :
    ∀ m ∈ members, (∃ name, m.1 = some name) ∧ HasValue m.2 := by
  obtain ⟨room, v, hv⟩ := h
  cases room with
  | zero => exact absurd hv (by simp [value?])
  | succ room =>
    obtain ⟨entries, hentries, _⟩ := Option.map_eq_some_iff.mp hv
    intro m hm
    obtain ⟨e, _, hname, hv⟩ := exists_right_of_forall₂ (valueMembers?_eq_some.mp hentries) hm
    exact ⟨⟨e.1, hname⟩, room, e.2, hv⟩

theorem readWord?_eq_some {word : String} {tree t : Tree} {text rest : List Char}
    (h : readWord? word tree text = some (t, rest)) : t = tree ∧ text = word.toList ++ rest := by
  unfold readWord? at h
  dsimp only at h
  split at h
  · rename_i hword
    obtain ⟨rfl, rfl⟩ := Prod.mk.inj (Option.some.inj h)
    refine ⟨rfl, ?_⟩
    conv_lhs => rw [← List.take_append_drop word.toList.length text, hword]
  · exact absurd h (by simp)

/-- What the text of a value can begin with, by what was read from it. -/
inductive Begins (steps : Nat) : List Char → Tree → List Char → Prop
  | null (rest : List Char) : Begins steps ("null".toList ++ rest) .null rest
  | true (rest : List Char) : Begins steps ("true".toList ++ rest) (.bool true) rest
  | false (rest : List Char) : Begins steps ("false".toList ++ rest) (.bool false) rest
  | number {n : Number.Numeral} {text rest : List Char} (h : Number.Numeral.read? text = some (n, rest)) :
      Begins steps text (.number n) rest
  | string {s : Option String} {text rest : List Char} (h : readQuoted? text = some (s, rest)) :
      Begins steps text (.string s) rest
  | noItems {blank : List Char} (hblank : Blank blank) (rest : List Char) :
      Begins steps ('[' :: (blank ++ ']' :: rest)) (.array []) rest
  | items {items : List Tree} {blank text rest : List Char} (hblank : Blank blank)
      (h : readItems? steps text = some (items, rest)) :
      Begins steps ('[' :: (blank ++ text)) (.array items) rest
  | noMembers {blank : List Char} (hblank : Blank blank) (rest : List Char) :
      Begins steps ('\x7b' :: (blank ++ '\x7d' :: rest)) (.object []) rest
  | members {members : List (Option String × Tree)} {blank text rest : List Char} (hblank : Blank blank)
      (h : readMembers? steps text = some (members, rest)) :
      Begins steps ('\x7b' :: (blank ++ text)) (.object members) rest

theorem begins_of_readValue? {steps : Nat} {text rest : List Char} {t : Tree}
    (h : readValue? (steps + 1) text = some (t, rest)) : Begins steps text t rest := by
  rw [readValue?.eq_def] at h
  dsimp only at h
  split at h
  · exact absurd h (by simp)
  rename_i c text
  obtain ⟨blank, hblank, htext⟩ := exists_blank text
  split at h
  · simp only [Option.map_eq_some_iff, Prod.exists, Prod.mk.injEq] at h
    obtain ⟨s, _, hread, rfl, rfl⟩ := h
    exact .string hread
  split at h
  · rename_i hc
    split at h
    · rename_i hdrop
      obtain ⟨rfl, rfl⟩ := Prod.mk.inj (Option.some.inj h)
      rw [htext, hdrop, hc]
      exact .noItems hblank _
    · simp only [Option.map_eq_some_iff, Prod.exists, Prod.mk.injEq] at h
      obtain ⟨items, _, hread, rfl, rfl⟩ := h
      rw [htext, hc]
      exact .items hblank hread
  split at h
  · rename_i hc
    split at h
    · rename_i hdrop
      obtain ⟨rfl, rfl⟩ := Prod.mk.inj (Option.some.inj h)
      rw [htext, hdrop, hc]
      exact .noMembers hblank _
    · simp only [Option.map_eq_some_iff, Prod.exists, Prod.mk.injEq] at h
      obtain ⟨members, _, hread, rfl, rfl⟩ := h
      rw [htext, hc]
      exact .members hblank hread
  split at h
  · obtain ⟨rfl, hword⟩ := readWord?_eq_some h
    exact hword ▸ .null rest
  split at h
  · obtain ⟨rfl, hword⟩ := readWord?_eq_some h
    exact hword ▸ .true rest
  split at h
  · obtain ⟨rfl, hword⟩ := readWord?_eq_some h
    exact hword ▸ .false rest
  · simp only [Option.map_eq_some_iff, Prod.exists, Prod.mk.injEq] at h
    obtain ⟨n, _, hread, rfl, rfl⟩ := h
    exact .number hread

/-- What the three readers have read within a number of steps. -/
structure Sound (steps : Nat) : Prop where
  value : ∀ {t : Tree} {text rest : List Char}, readValue? steps text = some (t, rest) → HasValue t →
    ∃ written, Writes t written ∧ text = written ++ rest
  items : ∀ {items : List Tree} {text rest : List Char}, readItems? steps text = some (items, rest) →
    (∀ t ∈ items, HasValue t) → ∃ written, Listed Writes ']' items written ∧ text = written ++ rest
  members : ∀ {members : List (Option String × Tree)} {text rest : List Char},
    readMembers? steps text = some (members, rest) →
    (∀ m ∈ members, (∃ name, m.1 = some name) ∧ HasValue m.2) →
    ∃ written, Listed WritesMember '\x7d' members written ∧ text = written ++ rest

namespace Sound

variable {steps : Nat} (ih : Sound steps) {text rest : List Char}

include ih

theorem value_succ {t : Tree} (h : readValue? (steps + 1) text = some (t, rest)) (hvalue : HasValue t) :
    ∃ written, Writes t written ∧ text = written ++ rest := by
  cases begins_of_readValue? h with
  | null => exact ⟨_, .null, rfl⟩
  | true => exact ⟨_, .true, rfl⟩
  | false => exact ⟨_, .false, rfl⟩
  | number hread =>
    obtain ⟨written, hwritten, htext⟩ := Number.Numeral.spells_of_read? hread
    exact ⟨written, .number hwritten, htext⟩
  | string hread =>
    obtain ⟨s, rfl⟩ := hvalue.string
    obtain ⟨written, hwritten, htext⟩ := writes_of_readQuoted? hread
    exact ⟨written, .string hwritten, htext⟩
  | noItems hblank => exact ⟨_, .noItems hblank, by simp⟩
  | items hblank hread =>
    obtain ⟨written, hwritten, rfl⟩ := ih.items hread hvalue.items
    exact ⟨_, .items hblank hwritten, by simp⟩
  | noMembers hblank => exact ⟨_, .noMembers hblank, by simp⟩
  | members hblank hread =>
    obtain ⟨written, hwritten, rfl⟩ := ih.members hread hvalue.members
    exact ⟨_, .members hblank hwritten, by simp⟩

theorem items_succ {items : List Tree} (h : readItems? (steps + 1) text = some (items, rest))
    (hvalue : ∀ t ∈ items, HasValue t) :
    ∃ written, Listed Writes ']' items written ∧ text = written ++ rest := by
  simp only [readItems?, Option.bind_eq_bind, Option.bind_eq_some_iff, Prod.exists] at h
  obtain ⟨t, afterItem, hread, h⟩ := h
  obtain ⟨before, hbefore, hblank⟩ := exists_blank afterItem
  split at h
  · rename_i hdrop
    obtain ⟨rfl, rfl⟩ := Prod.mk.inj (Option.some.inj h)
    obtain ⟨written, hwritten, rfl⟩ := ih.value hread (hvalue t List.mem_cons_self)
    exact ⟨_, .last hwritten hbefore, by rw [hblank, hdrop]; simp⟩
  · rename_i others hdrop
    obtain ⟨after, hafter, hothers⟩ := exists_blank others
    simp only [Option.bind_eq_some_iff, Prod.exists, Option.some.injEq, Prod.mk.injEq] at h
    obtain ⟨more, _, hmore, rfl, rfl⟩ := h
    obtain ⟨hfirst, hrest⟩ := List.forall_mem_cons.mp hvalue
    obtain ⟨written, hwritten, rfl⟩ := ih.value hread hfirst
    obtain ⟨writtenMore, hwrittenMore, htext⟩ := ih.items hmore hrest
    exact ⟨_, .more hwritten hbefore hafter hwrittenMore, by rw [hblank, hdrop, hothers, htext]; simp⟩
  · exact absurd h (by simp)

theorem member {name : Option String} {t : Tree} {afterName more : List Char}
    (hname : readQuoted? text = some (name, afterName)) (hcolon : afterName.dropWhile isSpace = ':' :: more)
    (hread : readValue? steps (more.dropWhile isSpace) = some (t, rest))
    (hvalue : (∃ text, name = some text) ∧ HasValue t) :
    ∃ written, WritesMember (name, t) written ∧ text = written ++ rest := by
  obtain ⟨⟨name, rfl⟩, hvalue⟩ := hvalue
  obtain ⟨before, hbefore, hafterName⟩ := exists_blank afterName
  obtain ⟨after, hafter, hmore⟩ := exists_blank more
  obtain ⟨quoted, hquoted, rfl⟩ := writes_of_readQuoted? hname
  obtain ⟨written, hwritten, htext⟩ := ih.value hread hvalue
  exact ⟨_, .colon hquoted hbefore hafter hwritten, by rw [hafterName, hcolon, hmore, htext]; simp⟩

theorem members_succ {members : List (Option String × Tree)}
    (h : readMembers? (steps + 1) text = some (members, rest))
    (hvalue : ∀ m ∈ members, (∃ name, m.1 = some name) ∧ HasValue m.2) :
    ∃ written, Listed WritesMember '\x7d' members written ∧ text = written ++ rest := by
  simp only [readMembers?, Option.bind_eq_bind, Option.bind_eq_some_iff, Prod.exists] at h
  obtain ⟨name, afterName, hname, h⟩ := h
  split at h
  · rename_i hcolon
    simp only [Option.bind_eq_some_iff, Prod.exists] at h
    obtain ⟨t, afterMember, hread, h⟩ := h
    obtain ⟨before, hbefore, hblank⟩ := exists_blank afterMember
    split at h
    · rename_i hdrop
      obtain ⟨rfl, rfl⟩ := Prod.mk.inj (Option.some.inj h)
      obtain ⟨written, hwritten, rfl⟩ := ih.member hname hcolon hread (hvalue _ List.mem_cons_self)
      exact ⟨_, .last hwritten hbefore, by rw [hblank, hdrop]; simp⟩
    · rename_i others hdrop
      obtain ⟨after, hafter, hothers⟩ := exists_blank others
      simp only [Option.bind_eq_some_iff, Prod.exists, Option.some.injEq, Prod.mk.injEq] at h
      obtain ⟨more, _, hmore, rfl, rfl⟩ := h
      obtain ⟨hfirst, hrest⟩ := List.forall_mem_cons.mp hvalue
      obtain ⟨written, hwritten, rfl⟩ := ih.member hname hcolon hread hfirst
      obtain ⟨writtenMore, hwrittenMore, htext⟩ := ih.members hmore hrest
      exact ⟨_, .more hwritten hbefore hafter hwrittenMore, by rw [hblank, hdrop, hothers, htext]; simp⟩
    · exact absurd h (by simp)
  · exact absurd h (by simp)

end Sound

theorem sound : ∀ steps, Sound steps
  | 0 => ⟨fun h => absurd h (by simp [readValue?]), fun h => absurd h (by simp [readItems?]),
      fun h => absurd h (by simp [readMembers?])⟩
  | steps + 1 =>
    have ih := sound steps
    ⟨ih.value_succ, ih.items_succ, ih.members_succ⟩

/-- **A text that was read is in the grammar.** -/
theorem writes_of_read? {t : Tree} {text : String} (h : read? text = some t) (hvalue : HasValue t) :
    WritesWhole t text.toList := by
  simp only [read?, Option.bind_eq_bind, Option.bind_eq_some_iff, Prod.exists] at h
  obtain ⟨t', rest, hread, h⟩ := h
  split at h
  · rename_i hempty
    obtain rfl := Option.some.inj h
    obtain ⟨before, hbefore, hchars⟩ := exists_blank text.toList
    obtain ⟨written, hwritten, htext⟩ := (sound _).value hread hvalue
    rw [hchars, htext]
    exact .blanks hbefore hwritten (List.dropWhile_eq_nil_iff.mp (List.isEmpty_iff.mp hempty))
  · exact absurd h (by simp)

end AuditTrail.Json.Tree
