import AuditTrail.Proofs.Text.Pieces
import AuditTrail.Replay.Hints
import Mathlib.Data.List.Infix
import Mathlib.Data.List.TakeWhile

/-!
# Declarations in a source

A declaration is written as a word, brackets with anything but a closing one between them, a name and an
opening parenthesis, with white space in between (`Declaration.Writes`). It counts where its word does not
continue another one (`Declaration.Stands`).

> The declarations of a text are its leftmost ones without overlap (`declarations_eq_iff`), and the first
> party of a declaration is what stands behind nothing but separators and white space (`firstParty?_eq_some`).

A declaration is written in one way only: the brackets end at the first closing one, and what separates the
rest can stand neither in a word nor in a name. So what begins at some character is settled, and leftmost
declarations are settled with it.
-/

namespace AuditTrail.Replay

open Text (isWhiteSpace isWordChar)

variable {c : Char} {text rest : List Char}

/-! ## White space and names -/

/-- A text of white space only. -/
def White (text : List Char) : Prop := ∀ c ∈ text, isWhiteSpace c = true

/-- A letter or an underscore, and then digits, too. -/
def IsIdentifier (text : List Char) : Prop :=
  ∃ first more, text = first :: more ∧ isNameStart first = true ∧ ∀ c ∈ more, isNamePart c = true

theorem not_white_of_isNamePart (h : isNamePart c = true) : isWhiteSpace c = false := by
  have hc : (97 ≤ c.toNat ∧ c.toNat ≤ 122) ∨ (65 ≤ c.toNat ∧ c.toNat ≤ 90) ∨ c.toNat = 95
      ∨ (48 ≤ c.toNat ∧ c.toNat ≤ 57) := by
    simp only [isNamePart, isNameStart, Bool.or_eq_true, Bool.and_eq_true, decide_eq_true_eq, beq_iff_eq] at h
    rcases h with ((h | h) | rfl) | h
    · exact .inl h
    · exact .inr (.inl h)
    · exact .inr (.inr (.inl rfl))
    · exact .inr (.inr (.inr h))
  simp only [isWhiteSpace, Bool.or_eq_false_iff, Bool.and_eq_false_iff, decide_eq_false_iff_not, beq_eq_false_iff_ne]
  omega

theorem IsIdentifier.isNamePart (h : IsIdentifier text) : ∀ c ∈ text, isNamePart c = true := by
  obtain ⟨first, more, rfl, hfirst, hmore⟩ := h
  intro c hc
  rcases List.mem_cons.mp hc with rfl | hc
  · rw [Replay.isNamePart, hfirst, Bool.true_or]
  · exact hmore c hc

/-- A text does not begin with white space. -/
def Solid (text : List Char) : Prop := ∀ c ∈ text.head?, isWhiteSpace c = false

theorem dropWhite_of_solid (h : Solid text) : dropWhite text = text := by
  cases text with
  | nil => rfl
  | cons c text => exact List.dropWhile_cons_of_neg (by simpa using h c rfl)

theorem dropWhite_append {white : List Char} (hwhite : White white) (h : Solid text) :
    dropWhite (white ++ text) = text := by
  rw [dropWhite, List.dropWhile_append_of_pos hwhite]
  exact dropWhite_of_solid h

theorem solid_dropWhite (text : List Char) : Solid (dropWhite text) := by
  intro c hc
  have hhead := List.head?_dropWhile_not isWhiteSpace text
  rw [← dropWhite, Option.mem_def.mp hc] at hhead
  simpa using hhead

theorem exists_white (text : List Char) : ∃ white, White white ∧ text = white ++ dropWhite text :=
  ⟨text.takeWhile isWhiteSpace, fun _ hc => List.mem_takeWhile_imp hc, List.takeWhile_append_dropWhile.symm⟩

/-- White space in front goes, whatever solid text stands behind. -/
theorem dropWhite_append_solid (inside : List Char) (h : Solid text) :
    dropWhite (inside ++ text) = dropWhite inside ++ text := by
  obtain ⟨white, hwhite, hinside⟩ := exists_white inside
  have hsolid : Solid (dropWhite inside ++ text) := by
    have hdrop := solid_dropWhite inside
    cases hcut : dropWhite inside with
    | nil => exact h
    | cons c more => rw [hcut] at hdrop; exact hdrop
  calc dropWhite (inside ++ text)
    _ = dropWhite (white ++ (dropWhite inside ++ text)) := by rw [← List.append_assoc, ← hinside]
    _ = dropWhite inside ++ text := dropWhite_append hwhite hsolid

/-- What a test holds for is taken up to the first character that fails it. -/
theorem takeWhile_append_of_stop {p : Char → Bool} (h : ∀ c ∈ text, p c = true)
    (hstop : ∀ c ∈ rest.head?, p c = false) : (text ++ rest).takeWhile p = text := by
  rw [List.takeWhile_append_of_pos h]
  cases rest with
  | nil => simp
  | cons c rest => rw [List.takeWhile_cons_of_neg (by simpa using hstop c rfl), List.append_nil]

/-! ## The grammar -/

namespace Declaration

/-- The texts that write a declaration after its word. -/
def WritesAfterWord (d : Declaration) (text : List Char) : Prop :=
  ∃ white inside white' name white'', White white ∧ ']' ∉ inside ∧ White white' ∧ IsIdentifier name ∧ White white''
    ∧ text = white ++ '[' :: (inside ++ ']' :: (white' ++ (name ++ (white'' ++ ['(']))))
    ∧ d = ⟨dropWhite inside, String.ofList name⟩

/-- The texts that write a declaration with one of some words. -/
def Writes (words : List String) (d : Declaration) (text : List Char) : Prop :=
  ∃ word ∈ words, ∃ more, d.WritesAfterWord more ∧ text = word.toList ++ more

variable {d d' : Declaration} {words : List String}

theorem solid_cons (h : isWhiteSpace c = false) : Solid (c :: text) := by
  intro d hd
  cases hd
  exact h

theorem readAfterWord?_append {white inside white' name white'' : List Char} (hwhite : White white)
    (hinside : ']' ∉ inside) (hwhite' : White white') (hname : IsIdentifier name) (hwhite'' : White white'')
    (rest : List Char) :
    readAfterWord? (white ++ '[' :: (inside ++ ']' :: (white' ++ (name ++ (white'' ++ '(' :: rest)))))
      = some (⟨dropWhite inside, String.ofList name⟩, rest) := by
  have hopen : Solid ('[' :: (inside ++ ']' :: (white' ++ (name ++ (white'' ++ '(' :: rest))))) := solid_cons rfl
  have hclose : Solid (']' :: (white' ++ (name ++ (white'' ++ '(' :: rest)))) := solid_cons rfl
  have hparen : Solid ('(' :: rest) := solid_cons rfl
  have hparties : (dropWhite inside ++ ']' :: (white' ++ (name ++ (white'' ++ '(' :: rest)))).takeWhile (· != ']')
      = dropWhite inside := by
    refine takeWhile_append_of_stop (fun c hc => ?_) (by simp)
    rw [bne_iff_ne]
    rintro rfl
    exact hinside ((List.dropWhile_suffix _).subset hc)
  have hafter : (name ++ (white'' ++ '(' :: rest)).takeWhile isNamePart = name := by
    refine takeWhile_append_of_stop hname.isNamePart fun c hc => ?_
    cases hpart : isNamePart c with
    | false => rfl
    | true =>
      have hsolid := not_white_of_isNamePart hpart
      cases white'' with
      | nil => cases hc; exact absurd hpart (by decide)
      | cons d more => cases hc; exact absurd (hwhite'' c List.mem_cons_self) (by simp [hsolid])
  have hhead : (name ++ (white'' ++ '(' :: rest)).head?.any isNameStart = true := by
    obtain ⟨first, more, rfl, hfirst, -⟩ := hname
    exact hfirst
  have hsolidName : Solid (name ++ (white'' ++ '(' :: rest)) := by
    intro c hc
    have hstart := hhead
    rw [Option.mem_def.mp hc] at hstart
    exact not_white_of_isNamePart (by rw [isNamePart, show isNameStart c = true from hstart, Bool.true_or])
  unfold readAfterWord?
  rw [dropWhite_append hwhite hopen]
  simp only
  rw [dropWhite_append_solid inside hclose, hparties, List.drop_left]
  simp only
  rw [dropWhite_append hwhite' hsolidName, if_pos hhead, hafter, List.drop_left, dropWhite_append hwhite'' hparen]
  rfl

/-- A text that is cut where a test first fails. -/
theorem takeWhile_append_drop (p : Char → Bool) (text : List Char) :
    text.takeWhile p ++ text.drop (text.takeWhile p).length = text := by
  conv_rhs => rw [← List.take_append_drop (text.takeWhile p).length text]
  rw [← List.prefix_iff_eq_take.mp (List.takeWhile_prefix p)]

theorem solid_takeWhile {p : Char → Bool} (h : Solid text) : Solid (text.takeWhile p) := by
  intro c hc
  cases text with
  | nil => exact absurd hc (by simp)
  | cons d text =>
    rw [List.takeWhile_cons] at hc
    split at hc
    · exact h c hc
    · exact absurd hc (by simp)

theorem isIdentifier_takeWhile (h : text.head?.any isNameStart = true) : IsIdentifier (text.takeWhile isNamePart) := by
  cases text with
  | nil => exact absurd h (by simp)
  | cons first more =>
    have hfirst : isNameStart first = true := h
    refine ⟨first, more.takeWhile isNamePart, ?_, hfirst, fun c hc => List.mem_takeWhile_imp hc⟩
    exact List.takeWhile_cons_of_pos (by rw [isNamePart, hfirst, Bool.true_or])

theorem exists_of_readAfterWord? (h : readAfterWord? text = some (d, rest)) :
    ∃ more, d.WritesAfterWord more ∧ text = more ++ rest := by
  obtain ⟨white, hwhite, htext⟩ := exists_white text
  unfold readAfterWord? at h
  split at h
  case h_2 => exact absurd h (by simp)
  case h_1 opened hopened =>
    obtain ⟨white₁, hwhite₁, hinside⟩ := exists_white opened
    have hparties := takeWhile_append_drop (· != ']') (dropWhite opened)
    simp only at h
    split at h
    case h_2 => exact absurd h (by simp)
    case h_1 closed hclosed =>
      obtain ⟨white', hwhite', hname⟩ := exists_white closed
      have hcut := takeWhile_append_drop isNamePart (dropWhite closed)
      split at h
      case isFalse => exact absurd h (by simp)
      case isTrue hstart =>
        split at h
        case h_2 => exact absurd h (by simp)
        case h_1 after hafter =>
          obtain ⟨white'', hwhite'', hend⟩ := exists_white
            ((dropWhite closed).drop ((dropWhite closed).takeWhile isNamePart).length)
          rw [Option.some.injEq, Prod.mk.injEq] at h
          obtain ⟨rfl, rfl⟩ := h
          refine ⟨_, ⟨white, white₁ ++ (dropWhite opened).takeWhile (· != ']'), white',
            (dropWhite closed).takeWhile isNamePart, white'', hwhite, ?_, hwhite', ?_, hwhite'', rfl, ?_⟩, ?_⟩
          · rw [List.mem_append, not_or]
            exact ⟨fun hmem => absurd (hwhite₁ _ hmem) (by decide),
              fun hmem => absurd (List.mem_takeWhile_imp hmem) (by simp)⟩
          · exact isIdentifier_takeWhile hstart
          · rw [dropWhite_append hwhite₁ (solid_takeWhile (solid_dropWhite opened))]
          · calc text
              _ = white ++ '[' :: opened := by rw [← hopened]; exact htext
              _ = white ++ '[' :: (white₁ ++ ((dropWhite opened).takeWhile (· != ']') ++ ']' :: closed)) := by
                rw [← hclosed, hparties, ← hinside]
              _ = white ++ '[' :: (white₁ ++ ((dropWhite opened).takeWhile (· != ']') ++ ']' ::
                  (white' ++ ((dropWhite closed).takeWhile isNamePart ++ (white'' ++ '(' :: after))))) := by
                rw [← hafter, ← hend, hcut, ← hname]
              _ = _ := by simp only [List.append_assoc, List.cons_append, List.nil_append]

/-- The reader keeps what is between the brackets, without white space in front. -/
theorem readAfterWord?_eq_some :
    readAfterWord? text = some (d, rest) ↔ ∃ more, d.WritesAfterWord more ∧ text = more ++ rest := by
  constructor
  · exact exists_of_readAfterWord?
  · rintro ⟨more, ⟨white, inside, white', name, white'', hwhite, hinside, hwhite', hname, hwhite'', rfl, rfl⟩, rfl⟩
    have hread := readAfterWord?_append hwhite hinside hwhite' hname hwhite'' rest
    simpa using hread

/-! ## Words -/

/-- The words end where something else begins, and are parts of words of the text. -/
def Keywords (words : List String) : Prop :=
  ∀ word ∈ words, (∃ first more, word.toList = first :: more ∧ isWordChar first = true)
    ∧ ∀ c ∈ word.toList, isWhiteSpace c = false ∧ c ≠ '['

theorem letters_of_all {word : String} (h : (word.toList.all fun c => !isWhiteSpace c && c != '[') = true) :
    ∀ c ∈ word.toList, isWhiteSpace c = false ∧ c ≠ '[' := by
  intro c hc
  simpa using List.all_eq_true.mp h c hc

theorem keywords_protocol : Keywords protocolWords := by
  intro word hword
  obtain rfl := List.mem_singleton.mp hword
  exact ⟨⟨'p', _, rfl, by decide⟩, letters_of_all (by decide)⟩

theorem keywords_action : Keywords actionWords := by
  intro word hword
  simp only [actionWords, List.mem_cons, List.not_mem_nil, or_false] at hword
  rcases hword with rfl | rfl
  · exact ⟨⟨'p', _, rfl, by decide⟩, letters_of_all (by decide)⟩
  · exact ⟨⟨'o', _, rfl, by decide⟩, letters_of_all (by decide)⟩

/-- The word is what stands before the first white space or bracket. -/
theorem takeWhile_word {word : String} (hwords : Keywords words) (hword : word ∈ words)
    (h : d.WritesAfterWord text) (rest : List Char) :
    (word.toList ++ (text ++ rest)).takeWhile (fun c => !isWhiteSpace c && c != '[') = word.toList := by
  obtain ⟨white, inside, white', name, white'', hwhite, -, -, -, -, rfl, -⟩ := h
  refine takeWhile_append_of_stop (fun c hc => ?_) fun c hc => ?_
  · obtain ⟨hsolid, hbracket⟩ := (hwords word hword).2 c hc
    simp [hsolid, hbracket]
  · cases white with
    | nil => cases hc; rfl
    | cons d more => cases hc; simp [hwhite c List.mem_cons_self]

theorem readWord?_eq_some {word : String} :
    (Text.dropStart? word.toList text).bind readAfterWord? = some (d, rest)
      ↔ ∃ more, d.WritesAfterWord more ∧ text = word.toList ++ (more ++ rest) := by
  rw [Option.bind_eq_some_iff]
  constructor
  · rintro ⟨after, hdrop, hread⟩
    obtain ⟨more, hmore, rfl⟩ := readAfterWord?_eq_some.mp hread
    exact ⟨more, hmore, Text.dropStart?_eq_some.mp hdrop⟩
  · rintro ⟨more, hmore, htext⟩
    exact ⟨more ++ rest, Text.dropStart?_eq_some.mpr htext, readAfterWord?_eq_some.mpr ⟨more, hmore, rfl⟩⟩

/-- What is read at the start of a text is a declaration that is written there. -/
theorem readAt?_eq_some (hwords : Keywords words) :
    readAt? words text = some (d, rest) ↔ ∃ matched, d.Writes words matched ∧ text = matched ++ rest := by
  constructor
  · intro h
    obtain ⟨word, hword, hread⟩ := List.exists_of_findSome?_eq_some h
    obtain ⟨more, hmore, rfl⟩ := readWord?_eq_some.mp hread
    exact ⟨word.toList ++ more, ⟨word, hword, more, hmore, rfl⟩, (List.append_assoc _ _ _).symm⟩
  · rintro ⟨_, ⟨word, hword, more, hmore, rfl⟩, htext⟩
    rw [List.append_assoc] at htext
    have hread := readWord?_eq_some.mpr ⟨more, hmore, htext⟩
    cases hfound : readAt? words text with
    | none => exact absurd (List.findSome?_eq_none_iff.mp hfound word hword) (by simp [hread])
    | some found =>
      -- Another word that is read here is the same word.
      obtain ⟨word', hword', hread'⟩ := List.exists_of_findSome?_eq_some hfound
      obtain ⟨more', hmore', htext'⟩ := readWord?_eq_some.mp hread'
      have hsame : word'.toList = word.toList := by
        rw [← takeWhile_word hwords hword' hmore' found.2, ← htext', htext, takeWhile_word hwords hword hmore]
      rw [← hread', String.toList_injective hsame, hread]

/-- What is written at the start of a text is written there in one way. -/
theorem Writes.unique (hwords : Keywords words) {matched matched' after after' : List Char}
    (h : d.Writes words matched) (h' : d'.Writes words matched') (htext : matched ++ after = matched' ++ after') :
    d = d' ∧ matched = matched' ∧ after = after' := by
  have hread : readAt? words (matched ++ after) = some (d, after) := (readAt?_eq_some hwords).mpr ⟨matched, h, rfl⟩
  rw [htext, (readAt?_eq_some hwords).mpr ⟨matched', h', rfl⟩, Option.some.injEq, Prod.mk.injEq] at hread
  obtain ⟨rfl, rfl⟩ := hread
  exact ⟨rfl, List.append_cancel_right htext, rfl⟩

/-- A declaration begins with a character of a word. -/
theorem Writes.exists_cons (hwords : Keywords words) (h : d.Writes words text) :
    ∃ first more, text = first :: more ∧ isWordChar first = true := by
  obtain ⟨word, hword, more, -, rfl⟩ := h
  obtain ⟨first, letters, hfirst, hchar⟩ := (hwords word hword).1
  exact ⟨first, letters ++ more, by rw [hfirst, List.cons_append], hchar⟩

/-- A declaration ends with a parenthesis. -/
theorem Writes.getLast? (h : d.Writes words text) : text.getLast? = some '(' := by
  obtain ⟨word, -, _, ⟨white, inside, white', name, white'', -, -, -, -, -, rfl, -⟩, rfl⟩ := h
  simp [List.getLast?_append, List.getLast?_cons]

/-! ## Leftmost declarations -/

/-- There is a boundary of a word between two parts of a text. -/
def Boundary (front rest : List Char) : Prop := front.getLast?.any isWordChar ≠ rest.head?.any isWordChar

/-- A declaration stands in a text, between what is in front of it and what is behind it. -/
def Stands (words : List String) (front : List Char) (d : Declaration) (matched after : List Char) : Prop :=
  Boundary front (matched ++ after) ∧ d.Writes words matched

/-- The leftmost declarations in the rest of a text: each one begins where the first declaration behind the
one before it begins, and none stands behind the last one. -/
inductive Leftmost (words : List String) : (front rest : List Char) → List Declaration → Prop
  | none {front rest : List Char} (last : ∀ skipped d matched after, rest = skipped ++ (matched ++ after) →
      ¬ Stands words (front ++ skipped) d matched after) : Leftmost words front rest []
  | next {front rest skipped matched after : List Char} {d : Declaration} {ds : List Declaration}
      (cut : rest = skipped ++ (matched ++ after)) (here : Stands words (front ++ skipped) d matched after)
      (first : ∀ skipped' d' matched' after', rest = skipped' ++ (matched' ++ after') →
        skipped'.length < skipped.length → ¬ Stands words (front ++ skipped') d' matched' after')
      (more : Leftmost words (front ++ skipped ++ matched) after ds) : Leftmost words front rest (d :: ds)

theorem stands_iff (hwords : Keywords words) {front matched after : List Char} :
    Stands words front d matched after ↔ front.getLast?.any isWordChar = false ∧ d.Writes words matched := by
  refine and_congr_left fun hwrites => ?_
  obtain ⟨first, more, rfl, hfirst⟩ := hwrites.exists_cons hwords
  have hhead : ((first :: more ++ after).head?.any isWordChar) = true := hfirst
  rw [Boundary, hhead, ne_eq, Bool.not_eq_true]

/-- A text has its leftmost declarations in one way. -/
theorem Leftmost.unique (hwords : Keywords words) {front : List Char} {ds ds' : List Declaration}
    (h : Leftmost words front text ds) (h' : Leftmost words front text ds') : ds = ds' := by
  induction h generalizing ds' with
  | none last =>
    cases h' with
    | none _ => rfl
    | next cut' here' _ _ => exact absurd here' (last _ _ _ _ cut')
  | @next front rest skipped matched after d ds cut here first more ih =>
    cases h' with
    | none last => exact absurd here (last _ _ _ _ cut)
    | @next _ _ skipped' matched' after' d' ds' cut' here' first' more' =>
      have hlength : skipped.length = skipped'.length := by
        rcases Nat.lt_trichotomy skipped.length skipped'.length with hlt | heq | hgt
        · exact absurd here (first' _ _ _ _ cut hlt)
        · exact heq
        · exact absurd here' (first _ _ _ _ cut' hgt)
      obtain ⟨rfl, hrest⟩ := List.append_inj (cut.symm.trans cut') hlength
      obtain ⟨rfl, rfl, rfl⟩ := here.2.unique hwords here'.2 hrest
      rw [ih more']

/-- A character that begins no declaration is passed over. -/
theorem Leftmost.skip {front : List Char} {ds : List Declaration} (h : Leftmost words (front ++ [c]) text ds)
    (hhere : ∀ d matched after, c :: text = matched ++ after → ¬ Stands words front d matched after) :
    Leftmost words front (c :: text) ds := by
  have hshift : ∀ skipped, front ++ [c] ++ skipped = front ++ c :: skipped := by simp
  have hlater : ∀ {skipped : List Char} {d : Declaration} {matched after : List Char},
      c :: text = skipped ++ (matched ++ after) → Stands words (front ++ skipped) d matched after →
      ∃ later, skipped = c :: later ∧ text = later ++ (matched ++ after)
        ∧ Stands words (front ++ [c] ++ later) d matched after := by
    intro skipped d matched after hcut hstands
    cases skipped with
    | nil =>
      rw [List.append_nil] at hstands
      exact absurd hstands (hhere _ _ _ hcut)
    | cons first later =>
      rw [List.cons_append, List.cons.injEq] at hcut
      obtain ⟨rfl, hcut⟩ := hcut
      exact ⟨later, rfl, hcut, by rw [hshift]; exact hstands⟩
  cases h with
  | none last =>
    refine .none fun skipped d matched after hcut hstands => ?_
    obtain ⟨later, -, hcut', hstands'⟩ := hlater hcut hstands
    exact last _ _ _ _ hcut' hstands'
  | @next _ _ skipped matched after d ds cut here first more =>
    have hcons : c :: text = (c :: skipped) ++ (matched ++ after) := by rw [cut, List.cons_append]
    refine .next hcons (by rw [← hshift]; exact here) ?_ (by rw [← hshift]; exact more)
    intro skipped' d' matched' after' hcut hlength hstands
    obtain ⟨later, rfl, hcut', hstands'⟩ := hlater hcut hstands
    exact first _ _ _ _ hcut' (Nat.lt_of_succ_lt_succ hlength) hstands'

/-- The search finds the leftmost declarations. -/
theorem leftmost_declarationsFrom (hwords : Keywords words) (steps : Nat) (front text : List Char)
    (hsteps : text.length < steps) :
    Leftmost words front text (declarationsFrom words steps (front.getLast?.any isWordChar) text) := by
  induction steps generalizing front text with
  | zero => omega
  | succ steps ih =>
    cases text with
    | nil =>
      refine .none fun skipped d matched after hcut hstands => ?_
      obtain ⟨first, more, rfl, -⟩ := hstands.2.exists_cons hwords
      exact absurd hcut (by simp)
    | cons c rest =>
      rw [declarationsFrom]
      split
      case h_1 d after hread =>
        split at hread
        case isTrue => exact absurd hread (by simp)
        case isFalse hword =>
          obtain ⟨matched, hwrites, hcut⟩ := (readAt?_eq_some hwords).mp hread
          have hstands : Stands words (front ++ []) d matched after :=
            (stands_iff hwords).mpr ⟨by simpa using hword, hwrites⟩
          have hends : (front ++ [] ++ matched).getLast?.any isWordChar = false := by
            rw [List.getLast?_append, hwrites.getLast?, Option.some_or, Option.any_some]
            decide
          have hshorter : after.length < steps := by
            obtain ⟨first, more, rfl, -⟩ := hwrites.exists_cons hwords
            have hlength := congrArg List.length hcut
            simp only [List.length_cons, List.length_append] at hlength hsteps
            omega
          refine .next hcut hstands (fun _ _ _ _ _ hlt => absurd hlt (by simp)) ?_
          rw [← hends]
          exact ih _ _ hshorter
      case h_2 hread =>
        have hlater := ih (front ++ [c]) rest (Nat.lt_of_succ_lt_succ hsteps)
        rw [List.getLast?_concat, Option.any_some] at hlater
        refine hlater.skip fun d matched after hcut hstands => ?_
        obtain ⟨hboundary, hwrites⟩ := (stands_iff hwords).mp hstands
        rw [hboundary, if_neg (by simp), (readAt?_eq_some hwords).mpr ⟨matched, hwrites, hcut⟩] at hread
        exact absurd hread (by simp)

/-- **The declarations that are found in a text are its leftmost ones.** -/
theorem declarations_eq_iff (hwords : Keywords words) {text : String} {ds : List Declaration} :
    declarations words text = ds ↔ Leftmost words [] text.toList ds := by
  have hfound := leftmost_declarationsFrom hwords (text.toList.length + 1) [] text.toList (Nat.lt_succ_self _)
  constructor
  · rintro rfl
    exact hfound
  · exact hfound.unique hwords

/-! ## The first party -/

/-- The characters between parties. -/
def separates (c : Char) : Bool := c == '|' || c == ','

/-- The first party of a declaration that is not blank: in front of it there are separators and white space
only, and with white space behind it, it ends at a separator or with the list. -/
def FirstParty (d : Declaration) (party : String) : Prop :=
  ∃ front white back, d.parties = front ++ (party.toList ++ (white ++ back))
    ∧ (∀ c ∈ front, isWhiteSpace c = true ∨ separates c = true) ∧ White white
    ∧ (∀ c ∈ back.head?, separates c = true) ∧ (∀ c ∈ party.toList, separates c = false)
    ∧ party.toList ≠ [] ∧ Solid party.toList ∧ Solid party.toList.reverse

/-- The first part of a list of parties that is not blank, without the white space around it. -/
def firstPart? (text : List Char) : Option (List Char) :=
  ((Text.pieces separates text).map Text.trimmed).find? fun party => !party.isEmpty

theorem firstParty?_eq (d : Declaration) : d.firstParty? = (firstPart? d.parties).map String.ofList := rfl

theorem firstPart?_cons (h : isWhiteSpace c = true ∨ separates c = true) (text : List Char) :
    firstPart? (c :: text) = firstPart? text := by
  unfold firstPart?
  rw [Text.pieces]
  split
  · rfl
  · next hseparates =>
    have hwhite : isWhiteSpace c = true := h.resolve_right hseparates
    have htrimmed : ∀ piece, Text.trimmed (c :: piece) = Text.trimmed piece := fun piece => by
      rw [Text.trimmed, Text.trim, List.dropWhile_cons_of_pos hwhite]
      rfl
    split
    · next piece more hpieces => rw [hpieces, List.map_cons, List.map_cons, htrimmed]
    · next hpieces =>
      rw [Text.pieces_eq] at hpieces
      exact absurd hpieces (List.splitOnP_ne_nil _ _)

theorem firstPart?_append {front : List Char} (h : ∀ c ∈ front, isWhiteSpace c = true ∨ separates c = true)
    (text : List Char) : firstPart? (front ++ text) = firstPart? text := by
  induction front with
  | nil => rfl
  | cons c front ih =>
    rw [List.cons_append, firstPart?_cons (h c List.mem_cons_self), ih fun d hd => h d (List.mem_cons_of_mem _ hd)]

/-- A part goes up to the first separator. -/
theorem exists_pieces_append {piece back : List Char} (hpiece : ∀ c ∈ piece, separates c = false)
    (hback : ∀ c ∈ back.head?, separates c = true) :
    ∃ more, Text.pieces separates (piece ++ back) = piece :: more := by
  induction piece with
  | nil =>
    cases back with
    | nil => exact ⟨[], rfl⟩
    | cons c back => exact ⟨Text.pieces separates back, by rw [List.nil_append, Text.pieces, if_pos (hback c rfl)]⟩
  | cons c piece ih =>
    obtain ⟨more, hmore⟩ := ih fun d hd => hpiece d (List.mem_cons_of_mem _ hd)
    refine ⟨more, ?_⟩
    rw [List.cons_append, Text.pieces, if_neg (by simp [hpiece c List.mem_cons_self]), hmore]

theorem exists_part (text : List Char) :
    ∃ piece back, text = piece ++ back ∧ (∀ c ∈ piece, separates c = false) ∧ ∀ c ∈ back.head?, separates c = true := by
  refine ⟨text.takeWhile (!separates ·), text.dropWhile (!separates ·), List.takeWhile_append_dropWhile.symm, ?_, ?_⟩
  · intro c hc
    simpa using List.mem_takeWhile_imp hc
  · intro c hc
    have hhead := List.head?_dropWhile_not (!separates ·) text
    rw [Option.mem_def.mp hc] at hhead
    simpa using hhead

/-- A solid text may end in white space, and what is in front of that is solid from both ends. -/
theorem exists_solid_end (hsolid : Solid (c :: text)) :
    ∃ more white, White white ∧ c :: text = c :: more ++ white ∧ Solid (c :: more).reverse := by
  obtain ⟨white, hwhite, hreverse⟩ := exists_white (c :: text).reverse
  have hcut : c :: text = (dropWhite (c :: text).reverse).reverse ++ white.reverse := by
    rw [← List.reverse_append, ← hreverse, List.reverse_reverse]
  cases hkept : (dropWhite (c :: text).reverse).reverse with
  | nil =>
    rw [hkept, List.nil_append] at hcut
    have hc : c ∈ white := List.mem_reverse.mp (hcut ▸ List.mem_cons_self)
    exact absurd (hwhite c hc) (by simp [hsolid c rfl])
  | cons first more =>
    rw [hkept, List.cons_append] at hcut
    obtain rfl : c = first := (List.cons.inj hcut).1
    refine ⟨more, white.reverse, fun d hd => hwhite d (List.mem_reverse.mp hd), hcut, ?_⟩
    rw [← hkept, List.reverse_reverse]
    exact solid_dropWhite _

theorem trimmed_append {white : List Char} (hsolid : Solid text) (hend : Solid text.reverse) (hne : text ≠ [])
    (hwhite : White white) : Text.trimmed (text ++ white) = text := by
  have hfront : Solid (text ++ white) := by
    cases text with
    | nil => exact absurd rfl hne
    | cons c text => exact hsolid
  rw [Text.trimmed, Text.trim, ← dropWhite, dropWhite_of_solid hfront, Text.trimEnd, List.reverse_append, ← dropWhite,
    dropWhite_append (fun c hc => hwhite c (List.mem_reverse.mp hc)) hend, List.reverse_reverse]

theorem not_separates_of_white (h : isWhiteSpace c = true) : separates c = false := by
  cases hc : separates c with
  | false => rfl
  | true =>
    rw [separates, Bool.or_eq_true, beq_iff_eq, beq_iff_eq] at hc
    rcases hc with rfl | rfl <;> exact absurd h (by decide)

theorem firstPart?_of_cut {party white back : List Char} (hwhite : White white)
    (hback : ∀ c ∈ back.head?, separates c = true) (hparty : ∀ c ∈ party, separates c = false) (hne : party ≠ [])
    (hsolid : Solid party) (hend : Solid party.reverse) :
    firstPart? (party ++ (white ++ back)) = some party := by
  have hpiece : ∀ c ∈ party ++ white, separates c = false :=
    List.forall_mem_append.mpr ⟨hparty, fun c hc => not_separates_of_white (hwhite c hc)⟩
  obtain ⟨more, hmore⟩ := exists_pieces_append hpiece hback
  rw [firstPart?, ← List.append_assoc, hmore, List.map_cons, trimmed_append hsolid hend hne hwhite,
    List.find?_cons_of_pos (by simpa using hne)]

theorem firstPart?_eq_some {party : List Char} :
    firstPart? text = some party ↔ ∃ front white back, text = front ++ (party ++ (white ++ back))
      ∧ (∀ c ∈ front, isWhiteSpace c = true ∨ separates c = true) ∧ White white
      ∧ (∀ c ∈ back.head?, separates c = true) ∧ (∀ c ∈ party, separates c = false)
      ∧ party ≠ [] ∧ Solid party ∧ Solid party.reverse := by
  constructor
  · intro h
    induction text with
    | nil => exact absurd h (by simp [firstPart?, Text.pieces, Text.trimmed, Text.trim, Text.trimEnd])
    | cons c text ih =>
      by_cases hskip : isWhiteSpace c = true ∨ separates c = true
      · rw [firstPart?_cons hskip] at h
        obtain ⟨front, white, back, rfl, hfront, hrest⟩ := ih h
        exact ⟨c :: front, white, back, rfl, List.forall_mem_cons.mpr ⟨hskip, hfront⟩, hrest⟩
      · -- The part begins here and goes up to the first separator.
        rw [not_or, Bool.not_eq_true, Bool.not_eq_true] at hskip
        obtain ⟨piece, back, hcut, hpiece, hback⟩ := exists_part text
        have hsolid : Solid (c :: piece) := solid_cons hskip.1
        obtain ⟨more, white, hwhite, hmore, hend⟩ := exists_solid_end hsolid
        have hparty : ∀ d ∈ c :: more, separates d = false := by
          intro d hd
          have hmem : d ∈ c :: piece := hmore ▸ List.mem_append_left white hd
          rcases List.mem_cons.mp hmem with rfl | hmem
          · exact hskip.2
          · exact hpiece d hmem
        have hwhole : c :: text = c :: more ++ (white ++ back) := by
          rw [hcut, ← List.cons_append, hmore, List.append_assoc]
        rw [hwhole, firstPart?_of_cut hwhite hback hparty (by simp) (solid_cons hskip.1) hend, Option.some.injEq] at h
        obtain rfl := h
        exact ⟨[], white, back, hwhole, by simp, hwhite, hback, hparty, by simp, solid_cons hskip.1, hend⟩
  · rintro ⟨front, white, back, rfl, hfront, hwhite, hback, hparty, hne, hsolid, hend⟩
    rw [firstPart?_append hfront]
    exact firstPart?_of_cut hwhite hback hparty hne hsolid hend

/-- The party that is found for a declaration is its first one. -/
theorem firstParty?_eq_some {party : String} : d.firstParty? = some party ↔ d.FirstParty party := by
  rw [firstParty?_eq, Option.map_eq_some_iff]
  constructor
  · rintro ⟨text, htext, rfl⟩
    have hfirst := firstPart?_eq_some.mp htext
    unfold FirstParty
    simpa using hfirst
  · intro h
    exact ⟨party.toList, firstPart?_eq_some.mpr h, String.ofList_toList⟩

end Declaration

end AuditTrail.Replay
