import AuditTrail.Json.Tree
import AuditTrail.Proofs.Number.Reading

/-!
# The grammar of JSON texts

The ways to write a tree (`Tree.Writes`), stated by how a text is put together and without the
reader: blanks may stand between any two tokens, a character of a string may be written as it is or by
an escape, and an exponent may have a small or a capital mark.

Reading a text of the grammar gives the tree that it writes (`Tree.read?_of_writes`). Trees with half a
surrogate pair in a string have no value, and the grammar leaves them out.

Three things shape the work. A string is read one character at a time, so it is enough to read one way
of writing a character. A numeral has to be read to its end, so a value is always read in front of a
text that cannot continue a numeral. And the reader counts its steps, so the induction is on them, with
the readers of values, items and members side by side (`Complete`).
-/

namespace AuditTrail.Json.Tree

/-! ## Strings -/

/-- A code unit that begins a surrogate pair. -/
abbrev IsHigh (unit : Nat) : Prop := 0xD800 ≤ unit ∧ unit ≤ 0xDBFF

/-- A code unit that ends a surrogate pair. -/
abbrev IsLow (unit : Nat) : Prop := 0xDC00 ≤ unit ∧ unit ≤ 0xDFFF

/-- The character of a surrogate pair. -/
def pairChar (high low : Nat) : Char :=
  Char.ofNat (0x10000 + (high - 0xD800) * 0x400 + (low - 0xDC00))

/-- The escapes with the four hexadecimal digits of a code unit. -/
inductive WritesUnit : Nat → List Char → Prop
  | digits {a b c d : Char} {unit : Nat} (h : unit? a b c d = some unit) :
      WritesUnit unit ['\\', 'u', a, b, c, d]

/-- The ways to write a character inside a string literal. -/
inductive WritesChar : Char → List Char → Prop
  | plain {c : Char} (hquote : c ≠ '"') (hslash : c ≠ '\\') (hcontrol : ¬ c.toNat < 0x20) :
      WritesChar c [c]
  | short {e c : Char} (h : shortEscape? e = some c) : WritesChar c ['\\', e]
  | unit {unit : Nat} {written : List Char} (h : WritesUnit unit written) (hhigh : ¬ IsHigh unit)
      (hlow : ¬ IsLow unit) : WritesChar (Char.ofNat unit) written
  | pair {high low : Nat} {written written' : List Char} (h : WritesUnit high written)
      (h' : WritesUnit low written') (hhigh : IsHigh high) (hlow : IsLow low) :
      WritesChar (pairChar high low) (written ++ written')

/-- The ways to write a text inside a string literal, one character after the other. -/
inductive WritesText : List Char → List Char → Prop
  | nil : WritesText [] []
  | cons {c : Char} {held written more : List Char} (hchar : WritesChar c written)
      (h : WritesText held more) : WritesText (c :: held) (written ++ more)

/-- The string literals of a text. -/
inductive WritesQuoted : String → List Char → Prop
  | quotes {text : String} {written : List Char} (h : WritesText text.toList written) :
      WritesQuoted text ('"' :: (written ++ ['"']))

/-! ## Values -/

/-- White space only. -/
def Blank (text : List Char) : Prop := ∀ c ∈ text, isSpace c = true

/-- Parts with a comma between any two of them and a closing character behind the last. -/
inductive Listed {α : Type} (part : α → List Char → Prop) (close : Char) : List α → List Char → Prop
  | last {a : α} {written blank : List Char} (h : part a written) (hblank : Blank blank) :
      Listed part close [a] (written ++ (blank ++ [close]))
  | more {a : α} {rest : List α} {written before after others : List Char} (h : part a written)
      (hbefore : Blank before) (hafter : Blank after) (hothers : Listed part close rest others) :
      Listed part close (a :: rest) (written ++ (before ++ ',' :: (after ++ others)))

mutual

/-- The ways to write a tree. -/
inductive Writes : Tree → List Char → Prop
  | null : Writes .null "null".toList
  | true : Writes (.bool true) "true".toList
  | false : Writes (.bool false) "false".toList
  | number {n : Number.Numeral} {written : List Char} (h : n.Spells written) :
      Writes (.number n) written
  | string {text : String} {written : List Char} (h : WritesQuoted text written) :
      Writes (.string (some text)) written
  | noItems {blank : List Char} (hblank : Blank blank) : Writes (.array []) ('[' :: (blank ++ [']']))
  | items {items : List Tree} {blank written : List Char} (hblank : Blank blank)
      (h : Listed Writes ']' items written) : Writes (.array items) ('[' :: (blank ++ written))
  | noMembers {blank : List Char} (hblank : Blank blank) :
      Writes (.object []) ('\x7b' :: (blank ++ ['\x7d']))
  | members {members : List (Option String × Tree)} {blank written : List Char}
      (hblank : Blank blank) (h : Listed WritesMember '\x7d' members written) :
      Writes (.object members) ('\x7b' :: (blank ++ written))

/-- The ways to write a member. -/
inductive WritesMember : Option String × Tree → List Char → Prop
  | colon {name : String} {t : Tree} {quoted before after written : List Char}
      (hname : WritesQuoted name quoted) (hbefore : Blank before) (hafter : Blank after)
      (h : Writes t written) :
      WritesMember (some name, t) (quoted ++ (before ++ ':' :: (after ++ written)))

end

/-- The ways to write a tree as a whole text, which may have white space around it. -/
inductive WritesWhole : Tree → List Char → Prop
  | blanks {t : Tree} {before written after : List Char} (hbefore : Blank before) (h : Writes t written)
      (hafter : Blank after) : WritesWhole t (before ++ (written ++ after))

/-! ## Reading strings -/

theorem readString?_plain {c : Char} (hquote : c ≠ '"') (hslash : c ≠ '\\')
    (hcontrol : ¬ c.toNat < 0x20) (text : List Char) :
    readString? none (c :: text) = consChar c (readString? none text) := by
  rw [readString?.eq_def]
  split
  · rename_i heq
    simp at heq
  · rename_i heq
    rw [List.cons.injEq] at heq
    exact absurd heq.1 hquote
  · rename_i heq
    rw [List.cons.injEq] at heq
    exact absurd heq.1 hslash
  · rename_i heq
    rw [List.cons.injEq] at heq
    exact absurd heq.1 hslash
  · rename_i c' rest' _ _ _ heq
    rw [List.cons.injEq] at heq
    obtain ⟨rfl, rfl⟩ := heq
    rw [if_neg (by simp [hslash, hcontrol])]
    rfl

theorem readString?_short {e c : Char} (h : shortEscape? e = some c) (text : List Char) :
    readString? none ('\\' :: e :: text) = consChar c (readString? none text) := by
  unfold shortEscape? at h
  split at h
  case h_9 => exact absurd h (by simp)
  all_goals
    obtain rfl := Option.some.inj h
    rfl

/-- A character of a string is read as it was written, whichever of the ways that is. -/
theorem readString?_of_writesChar {c : Char} {written : List Char} (h : WritesChar c written)
    (text : List Char) : readString? none (written ++ text) = consChar c (readString? none text) := by
  cases h with
  | plain hquote hslash hcontrol => exact readString?_plain hquote hslash hcontrol text
  | short h => exact readString?_short h text
  | unit h hhigh hlow =>
    cases h with
    | digits h =>
      simp only [List.cons_append, List.nil_append, readString?, h, if_neg hhigh, if_neg hlow]
  | pair h h' hhigh hlow =>
    cases h with
    | digits h =>
      cases h' with
      | digits h' =>
        simp only [List.cons_append, List.nil_append, readString?, h, h', if_pos hhigh, if_pos hlow,
          pairChar]

theorem readString?_of_writesText {held written : List Char} (h : WritesText held written)
    (rest : List Char) : readString? none (written ++ '"' :: rest) = some (some held, rest) := by
  induction h with
  | nil => rfl
  | cons hchar _ ih =>
    rw [List.append_assoc, readString?_of_writesChar hchar, ih]
    rfl

theorem readQuoted?_of_writes {text : String} {written : List Char} (h : WritesQuoted text written)
    (rest : List Char) : readQuoted? (written ++ rest) = some (some text, rest) := by
  cases h with
  | quotes h =>
    have hread := readString?_of_writesText h rest
    rw [List.cons_append, List.append_assoc, List.singleton_append, readQuoted?, hread, Option.map_some]
    dsimp only
    rw [Option.map_some, String.ofList_toList]

/-! ## Blanks -/

theorem dropWhile_blank {blank : List Char} (h : Blank blank) {c : Char} (hc : isSpace c = false)
    (text : List Char) : (blank ++ c :: text).dropWhile isSpace = c :: text := by
  rw [List.dropWhile_append_of_pos h, List.dropWhile_cons_of_neg (by simp [hc])]

/-- White space does not continue a numeral. -/
theorem ends_blank {blank rest : List Char} (h : Blank blank) (hrest : Number.Numeral.Ends rest) :
    Number.Numeral.Ends (blank ++ rest) := by
  cases blank with
  | nil => exact hrest
  | cons c blank =>
    have hspace := h c List.mem_cons_self
    simp only [isSpace, Bool.or_eq_true, beq_iff_eq] at hspace
    rcases hspace with ((rfl | rfl) | rfl) | rfl
    all_goals exact Number.Numeral.ends_cons _ (by decide) (by decide) (by decide) (by decide)

/-- What may stand after an item or a member does not continue a numeral either. -/
theorem ends_close {close : Char} (h : close = ',' ∨ close = ']' ∨ close = '\x7d')
    (rest : List Char) : Number.Numeral.Ends (close :: rest) := by
  rcases h with rfl | rfl | rfl
  all_goals exact Number.Numeral.ends_cons rest (by decide) (by decide) (by decide) (by decide)

/-! ## What a value begins with -/

/-- The first character of a value's text: no white space, and not the bracket that closes an array. -/
structure Opens (c : Char) : Prop where
  notSpace : isSpace c = false
  notBracket : c ≠ ']'

theorem opens_digit : ∀ d : Number.Digit, Opens d.char := by
  have h : ∀ d : Number.Digit, isSpace d.char = false ∧ d.char ≠ ']' := by decide
  exact fun d => ⟨(h d).1, (h d).2⟩

theorem WritesQuoted.front {text : String} {written : List Char} (h : WritesQuoted text written) :
    ∃ rest, written = '"' :: rest := by
  cases h with
  | quotes _ => exact ⟨_, rfl⟩

theorem Writes.front {t : Tree} {written : List Char} (h : Writes t written) :
    ∃ c rest, written = c :: rest ∧ Opens c := by
  cases h with
  | null => exact ⟨'n', _, rfl, by decide, by decide⟩
  | true => exact ⟨'t', _, rfl, by decide, by decide⟩
  | false => exact ⟨'f', _, rfl, by decide, by decide⟩
  | number h =>
    rcases h.front with ⟨rest, rfl⟩ | ⟨d, rest, rfl⟩
    · exact ⟨'-', rest, rfl, by decide, by decide⟩
    · exact ⟨d.char, rest, rfl, opens_digit d⟩
  | string h =>
    obtain ⟨rest, rfl⟩ := h.front
    exact ⟨'"', rest, rfl, by decide, by decide⟩
  | noItems _ => exact ⟨'[', _, rfl, by decide, by decide⟩
  | items _ _ => exact ⟨'[', _, rfl, by decide, by decide⟩
  | noMembers _ => exact ⟨'\x7b', _, rfl, by decide, by decide⟩
  | members _ _ => exact ⟨'\x7b', _, rfl, by decide, by decide⟩

theorem WritesMember.front {m : Option String × Tree} {written : List Char} (h : WritesMember m written) :
    ∃ rest, written = '"' :: rest := by
  cases h with
  | colon hname _ _ _ =>
    obtain ⟨rest, rfl⟩ := hname.front
    exact ⟨_, rfl⟩

/-- A list begins with its first part. -/
theorem Listed.front {α : Type} {part : α → List Char → Prop} {close : Char} {items : List α}
    {written : List Char} (h : Listed part close items written) :
    ∃ a first rest, part a first ∧ written = first ++ rest := by
  cases h with
  | last h _ => exact ⟨_, _, _, h, rfl⟩
  | more h _ _ _ => exact ⟨_, _, _, h, rfl⟩

/-! ## Reading values -/

theorem readWord?_append (word : String) (t : Tree) (rest : List Char) :
    readWord? word t (word.toList ++ rest) = some (t, rest) := by
  simp [readWord?]

theorem digit_dispatch : ∀ d : Number.Digit, d.char ≠ '"' ∧ d.char ≠ '[' ∧ d.char ≠ '\x7b'
    ∧ d.char ≠ 'n' ∧ d.char ≠ 't' ∧ d.char ≠ 'f' := by decide

/-- A character that begins no other value begins a numeral. -/
theorem readValue?_other (steps : Nat) {c : Char} (rest : List Char)
    (h : c ≠ '"' ∧ c ≠ '[' ∧ c ≠ '\x7b' ∧ c ≠ 'n' ∧ c ≠ 't' ∧ c ≠ 'f') :
    readValue? (steps + 1) (c :: rest)
      = (Number.Numeral.read? (c :: rest)).map fun (n, rest) => (.number n, rest) := by
  obtain ⟨hquote, hbracket, hbrace, hn, ht, hf⟩ := h
  rw [readValue?]
  dsimp only
  rw [if_neg hquote, if_neg hbracket, if_neg hbrace, if_neg hn, if_neg ht, if_neg hf]

section

variable {steps : Nat} {rest : List Char}

theorem readValue?_of_number {n : Number.Numeral} {written : List Char} (h : n.Spells written)
    (hrest : Number.Numeral.Ends rest) :
    readValue? (steps + 1) (written ++ rest) = some (.number n, rest) := by
  have hread := Number.Numeral.read?_spelled h hrest
  rcases h.front with ⟨more, rfl⟩ | ⟨d, more, rfl⟩
  · rw [List.cons_append] at hread ⊢
    rw [readValue?_other steps _ (by decide), hread, Option.map_some]
  · rw [List.cons_append] at hread ⊢
    rw [readValue?_other steps _ (digit_dispatch d), hread, Option.map_some]

theorem readValue?_of_string {text : String} {written : List Char} (h : WritesQuoted text written) :
    readValue? (steps + 1) (written ++ rest) = some (.string (some text), rest) := by
  have hread := readQuoted?_of_writes h rest
  obtain ⟨more, rfl⟩ := h.front
  rw [List.cons_append] at hread ⊢
  rw [readValue?, if_pos rfl, hread, Option.map_some]

/-- An array that holds something is read from its first item on. -/
theorem readValue?_bracket {blank text : List Char} (hblank : Blank blank) {c : Char} (hc : Opens c) :
    readValue? (steps + 1) ('[' :: (blank ++ c :: text))
      = (readItems? steps (c :: text)).map fun (items, rest) => (.array items, rest) := by
  rw [readValue?]
  dsimp only
  rw [if_neg (by decide), if_pos rfl, dropWhile_blank hblank hc.notSpace]
  split
  · rename_i heq
    exact absurd (List.head_eq_of_cons_eq heq) hc.notBracket
  · rfl

/-- An object that holds something is read from its first name on. -/
theorem readValue?_brace {blank text : List Char} (hblank : Blank blank) :
    readValue? (steps + 1) ('\x7b' :: (blank ++ '"' :: text))
      = (readMembers? steps ('"' :: text)).map fun (members, rest) => (.object members, rest) := by
  rw [readValue?]
  dsimp only
  rw [if_neg (by decide), if_neg (by decide), if_pos rfl, dropWhile_blank hblank (by decide)]
  rfl

end

/-- What the three readers read within a number of steps. -/
structure Complete (steps : Nat) : Prop where
  value : ∀ {t : Tree} {written rest : List Char}, Writes t written → Number.Numeral.Ends rest →
    written.length < steps → readValue? steps (written ++ rest) = some (t, rest)
  items : ∀ {items : List Tree} {written : List Char}, Listed Writes ']' items written →
    written.length < steps → ∀ rest, readItems? steps (written ++ rest) = some (items, rest)
  members : ∀ {members : List (Option String × Tree)} {written : List Char},
    Listed WritesMember '\x7d' members written → written.length < steps →
    ∀ rest, readMembers? steps (written ++ rest) = some (members, rest)

namespace Complete

variable {steps : Nat} (ih : Complete steps) {written rest : List Char}

include ih

theorem value_succ {t : Tree} (h : Writes t written) (hrest : Number.Numeral.Ends rest)
    (hlength : written.length < steps + 1) :
    readValue? (steps + 1) (written ++ rest) = some (t, rest) := by
  cases h with
  | null => exact readWord?_append "null" .null rest
  | true => exact readWord?_append "true" (.bool true) rest
  | false => exact readWord?_append "false" (.bool false) rest
  | number h => exact readValue?_of_number h hrest
  | string h => exact readValue?_of_string h
  | noItems hblank =>
    rw [List.cons_append, List.append_assoc, List.singleton_append, readValue?]
    dsimp only
    rw [if_neg (by decide), if_pos rfl, dropWhile_blank hblank (by decide)]
    rfl
  | items hblank h =>
    rw [List.length_cons, List.length_append] at hlength
    have hread := ih.items h (by omega) rest
    -- The reader looks for a closing bracket first, and an item does not begin with one.
    obtain ⟨_, first, more, hfirst, rfl⟩ := h.front
    obtain ⟨c, first, rfl, hc⟩ := hfirst.front
    simp only [List.cons_append, List.append_assoc] at hread ⊢
    rw [readValue?_bracket hblank hc, hread, Option.map_some]
  | noMembers hblank =>
    rw [List.cons_append, List.append_assoc, List.singleton_append, readValue?]
    dsimp only
    rw [if_neg (by decide), if_neg (by decide), if_pos rfl, dropWhile_blank hblank (by decide)]
    rfl
  | members hblank h =>
    rw [List.length_cons, List.length_append] at hlength
    have hread := ih.members h (by omega) rest
    obtain ⟨_, first, more, hfirst, rfl⟩ := h.front
    obtain ⟨first, rfl⟩ := hfirst.front
    simp only [List.cons_append, List.append_assoc] at hread ⊢
    rw [readValue?_brace hblank, hread, Option.map_some]

/-- After an item comes the closing bracket, or a comma and the other items. -/
theorem readItems?_item {t : Tree} (h : Writes t written) (hrest : Number.Numeral.Ends rest)
    (hlength : written.length < steps) :
    readItems? (steps + 1) (written ++ rest) = match rest.dropWhile isSpace with
      | ']' :: rest => some ([t], rest)
      | ',' :: rest => (readItems? steps (rest.dropWhile isSpace)).bind fun (items, rest) =>
        some (t :: items, rest)
      | _ => none := by
  rw [readItems?, ih.value h hrest hlength, Option.bind_eq_bind, Option.bind_some]
  rfl

theorem items_succ {items : List Tree} (h : Listed Writes ']' items written)
    (hlength : written.length < steps + 1) (rest : List Char) :
    readItems? (steps + 1) (written ++ rest) = some (items, rest) := by
  cases h with
  | last h hblank =>
    simp only [List.length_append, List.length_singleton] at hlength
    rw [List.append_assoc, List.append_assoc, List.singleton_append, ih.readItems?_item h
      (ends_blank hblank (ends_close (Or.inr (Or.inl rfl)) rest)) (by omega),
      dropWhile_blank hblank (by decide)]
    rfl
  | more h hbefore hafter hothers =>
    simp only [List.length_append, List.length_cons] at hlength
    have hitems := ih.items hothers (by omega) rest
    obtain ⟨_, first, more, hfirst, rfl⟩ := hothers.front
    obtain ⟨c, first, rfl, hc⟩ := hfirst.front
    simp only [List.cons_append, List.append_assoc] at hitems ⊢
    rw [ih.readItems?_item h (ends_blank hbefore (ends_close (Or.inl rfl) _)) (by omega),
      dropWhile_blank hbefore (by decide)]
    show (readItems? steps (List.dropWhile isSpace _)).bind _ = _
    rw [dropWhile_blank hafter hc.notSpace, hitems, Option.bind_some]

/-- After a member comes the closing brace, or a comma and the other members. -/
theorem readMembers?_member {m : Option String × Tree} (h : WritesMember m written)
    (hrest : Number.Numeral.Ends rest) (hlength : written.length < steps) :
    readMembers? (steps + 1) (written ++ rest) = match rest.dropWhile isSpace with
      | '\x7d' :: rest => some ([m], rest)
      | ',' :: rest => (readMembers? steps (rest.dropWhile isSpace)).bind fun (members, rest) =>
        some (m :: members, rest)
      | _ => none := by
  cases h with
  | colon hname hbefore hafter h =>
    simp only [List.length_append, List.length_cons] at hlength
    have hvalue := ih.value h hrest (by omega)
    obtain ⟨c, value, rfl, hc⟩ := h.front
    simp only [List.append_assoc, List.cons_append] at hvalue ⊢
    rw [readMembers?, readQuoted?_of_writes hname, Option.bind_eq_bind, Option.bind_some]
    dsimp only
    rw [dropWhile_blank hbefore (by decide)]
    show (readValue? steps (List.dropWhile isSpace _)).bind _ = _
    rw [dropWhile_blank hafter hc.notSpace, hvalue, Option.bind_some]
    rfl

theorem members_succ {members : List (Option String × Tree)}
    (h : Listed WritesMember '\x7d' members written) (hlength : written.length < steps + 1)
    (rest : List Char) : readMembers? (steps + 1) (written ++ rest) = some (members, rest) := by
  cases h with
  | last h hblank =>
    simp only [List.length_append, List.length_singleton] at hlength
    rw [List.append_assoc, List.append_assoc, List.singleton_append, ih.readMembers?_member h
      (ends_blank hblank (ends_close (Or.inr (Or.inr rfl)) rest)) (by omega),
      dropWhile_blank hblank (by decide)]
    rfl
  | more h hbefore hafter hothers =>
    simp only [List.length_append, List.length_cons] at hlength
    have hmembers := ih.members hothers (by omega) rest
    obtain ⟨_, first, more, hfirst, rfl⟩ := hothers.front
    obtain ⟨first, rfl⟩ := hfirst.front
    simp only [List.cons_append, List.append_assoc] at hmembers ⊢
    rw [ih.readMembers?_member h (ends_blank hbefore (ends_close (Or.inl rfl) _)) (by omega),
      dropWhile_blank hbefore (by decide)]
    show (readMembers? steps (List.dropWhile isSpace _)).bind _ = _
    rw [dropWhile_blank hafter (by decide), hmembers, Option.bind_some]

end Complete

theorem complete : ∀ steps, Complete steps
  | 0 => ⟨fun _ _ h => absurd h (Nat.not_lt_zero _), fun _ h => absurd h (Nat.not_lt_zero _),
      fun _ h => absurd h (Nat.not_lt_zero _)⟩
  | steps + 1 =>
    have ih := complete steps
    ⟨ih.value_succ, ih.items_succ, ih.members_succ⟩

/-- **A text of the grammar is read.** -/
theorem read?_of_writes {t : Tree} {text : String} (h : WritesWhole t text.toList) :
    read? text = some t := by
  unfold read?
  dsimp only
  -- The reader is given one step for each character and one more.
  generalize hchars : text.toList = chars at h
  cases h with
  | @blanks before written after hbefore h hafter =>
    have hends : Number.Numeral.Ends after := by
      rw [← List.append_nil after]
      exact ends_blank hafter Number.Numeral.ends_nil
    have hread := (complete ((before ++ (written ++ after)).length + 1)).value h hends
      (by simp only [List.length_append]; omega)
    have hempty : after.dropWhile isSpace = [] := List.dropWhile_eq_nil_iff.mpr hafter
    obtain ⟨c, written, rfl, hc⟩ := h.front
    rw [List.cons_append] at *
    rw [dropWhile_blank hbefore hc.notSpace, hread, Option.bind_eq_bind, Option.bind_some]
    dsimp only
    rw [hempty]
    rfl

end AuditTrail.Json.Tree
