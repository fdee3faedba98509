import AuditTrail.Proofs.Json.Grammar
import AuditTrail.Proofs.Json.Value
import AuditTrail.Proofs.Text.Bytes

/-!
# Reading a printed tree back

A tree that can be written is printed without white space, its strings with as few escapes as there can
be. That is one of the ways to write the tree (`Tree.writes_chars`), so reading the text gives the tree
again (`Tree.read?_chars`). This is about the grammar alone: no number is given a value here, and nothing
is said about depth.
-/

namespace AuditTrail.Json

/-! ## Strings -/

theorem Tree.unit?_control {c : Char} (h : c.toNat < 0x20) :
    unit? '0' '0' (Bytes.hexDigit (c.toNat / 16)) (Bytes.hexDigit (c.toNat % 16)) = some c.toNat := by
  have hhigh := Bytes.hexValue?_hexDigit ⟨c.toNat / 16, by omega⟩
  have hlow := Bytes.hexValue?_hexDigit ⟨c.toNat % 16, by omega⟩
  have hzero : Bytes.hexValue? '0' = some 0 := by decide
  simp only [unit?, hzero, hhigh, hlow, Option.bind_eq_bind, Option.bind_some]
  rw [Option.some.injEq]
  omega

/-- A character is escaped in one of the ways to write it. -/
theorem Tree.writesChar_escaped (c : Char) : WritesChar c (escaped c) := by
  unfold escaped
  split
  -- The short escapes compute; what is left is a control character or a plain one.
  case h_8 _ hquote hslash _ _ _ _ _ =>
    split
    · rename_i hcontrol
      have hunit := WritesChar.unit (.digits (unit?_control hcontrol)) (by omega) (by omega)
      rwa [Char.ofNat_toNat] at hunit
    · rename_i hplain
      exact .plain hquote hslash hplain
  all_goals exact .short rfl

theorem Tree.writesText_escaped (content : List Char) : WritesText content (content.flatMap escaped) := by
  induction content with
  | nil => exact .nil
  | cons c content ih =>
    rw [List.flatMap_cons]
    exact .cons (writesChar_escaped c) ih

theorem Tree.writesQuoted_quoted (text : String) : WritesQuoted text (quoted (some text)) :=
  .quotes (writesText_escaped text.toList)

/-! ## Trees that can be written -/

namespace Tree

mutual

/-- A tree whose text is a JSON text of its own: numerals follow the grammar and strings are texts. -/
def Writable : Tree → Prop
  | .null => True
  | .bool _ => True
  | .number n => n.Written
  | .string s => s.isSome = true
  | .array items => WritableItems items
  | .object members => WritableMembers members
termination_by structural t => t

/-- All items can be written. -/
def WritableItems : List Tree → Prop
  | [] => True
  | t :: rest => Writable t ∧ WritableItems rest
termination_by structural t => t

/-- The names and the trees of all members can be written. -/
def WritableMembers : List (Option String × Tree) → Prop
  | [] => True
  | (name, t) :: rest => name.isSome = true ∧ Writable t ∧ WritableMembers rest
termination_by structural t => t

end

theorem writableItems_iff : ∀ (items : List Tree), WritableItems items ↔ ∀ t ∈ items, t.Writable
  | [] => by simp [WritableItems]
  | t :: rest => by simp [WritableItems, writableItems_iff rest]

theorem writableMembers_iff : ∀ (members : List (Option String × Tree)),
    WritableMembers members ↔ ∀ m ∈ members, m.1.isSome = true ∧ m.2.Writable
  | [] => by simp [WritableMembers]
  | (name, t) :: rest => by
    simp [WritableMembers, writableMembers_iff rest, and_assoc]

/-! ## Printing follows the grammar -/

theorem blank_nil : Blank [] := fun _ h => absurd h List.not_mem_nil

theorem listed_itemChars {t : Tree} {items : List Tree} (h : ∀ u ∈ t :: items, Writes u u.chars) :
    Listed Writes ']' (t :: items) (t.chars ++ itemChars items) := by
  induction items generalizing t with
  | nil => exact .last (h t List.mem_cons_self) blank_nil
  | cons u items ih =>
    obtain ⟨hfirst, hrest⟩ := List.forall_mem_cons.mp h
    have hlist := Listed.more hfirst blank_nil blank_nil (ih hrest)
    exact hlist

theorem listed_memberChars {m : Option String × Tree} {members : List (Option String × Tree)}
    (h : ∀ n ∈ m :: members, WritesMember n (quoted n.1 ++ ':' :: n.2.chars)) :
    Listed WritesMember '\x7d' (m :: members) (quoted m.1 ++ ':' :: (m.2.chars ++ memberChars members)) := by
  induction members generalizing m with
  | nil =>
    rw [← List.cons_append, ← List.append_assoc]
    exact .last (h m List.mem_cons_self) blank_nil
  | cons n members ih =>
    obtain ⟨hfirst, hrest⟩ := List.forall_mem_cons.mp h
    have hlist := Listed.more hfirst blank_nil blank_nil (ih hrest)
    rwa [List.append_assoc, List.cons_append] at hlist

/-- A tree is printed in one of the ways to write it. -/
theorem writes_chars {t : Tree} (h : t.Writable) : Writes t t.chars := by
  induction t with
  | null => exact .null
  | bool b =>
    cases b with
    | true => exact .true
    | false => exact .false
  | number n => exact .number (Number.Numeral.spells_chars h)
  | string s =>
    obtain ⟨text, rfl⟩ := Option.isSome_iff_exists.mp h
    exact .string (writesQuoted_quoted text)
  | array items ih =>
    have hitems := (writableItems_iff items).mp h
    cases items with
    | nil => exact .noItems blank_nil
    | cons t items =>
      have harray := Writes.items blank_nil (listed_itemChars fun u hu => ih u hu (hitems u hu))
      exact harray
  | object members ih =>
    have hmembers := (writableMembers_iff members).mp h
    cases members with
    | nil => exact .noMembers blank_nil
    | cons m members =>
      have heach : ∀ n ∈ m :: members, WritesMember n (quoted n.1 ++ ':' :: n.2.chars) := by
        rintro ⟨name, t⟩ hn
        obtain ⟨hname, ht⟩ := hmembers _ hn
        obtain ⟨text, rfl⟩ := Option.isSome_iff_exists.mp hname
        exact .colon (writesQuoted_quoted text) blank_nil blank_nil (ih _ hn ht)
      have hobject := Writes.members blank_nil (listed_memberChars heach)
      exact hobject

/-- **Reading a printed tree back.** -/
theorem read?_chars {t : Tree} (h : t.Writable) : read? (String.ofList t.chars) = some t := by
  have hwhole := WritesWhole.blanks blank_nil (writes_chars h) blank_nil
  rw [List.nil_append, List.append_nil] at hwhole
  refine read?_of_writes ?_
  rwa [String.toList_ofList]

end Tree

end AuditTrail.Json
