import AuditTrail.Proofs.Number.Layout

/-!
# Reading a numeral back

A numeral is spelled by its sign, its digits and its exponent, whose mark may be a small or a capital
letter (`Numeral.Spells`). Reading such a text gives the numeral and leaves what follows it untouched
(`Numeral.read?_spelled`), as long as what follows cannot continue a numeral, and nothing else is read
(`Numeral.spells_of_read?`). The reader is three readers in a row, for the digits before the point, the
fraction and the exponent, and the proofs are one lemma for each; what may follow a part is what the
next part can begin with.
-/

namespace AuditTrail.Number

/-! ## Runs of digits in a text -/

@[simp] theorem Digit.ofChar?_char : ∀ d : Digit, Digit.ofChar? d.char = some d := by decide

theorem Digit.char_ne_zero : ∀ d : Digit, d ≠ Digit.zero → d.char ≠ '0' := by decide

theorem Digit.char_ne_minus : ∀ d : Digit, d.char ≠ '-' := by decide

theorem Digit.char_ne_plus : ∀ d : Digit, d.char ≠ '+' := by decide

/-- A text does not begin with a digit. -/
def NoDigit (text : List Char) : Prop := ∀ c rest, text = c :: rest → Digit.ofChar? c = none

theorem noDigit_nil : NoDigit [] := fun _ _ h => by simp at h

theorem noDigit_cons {c : Char} (rest : List Char) (h : Digit.ofChar? c = none) :
    NoDigit (c :: rest) := by
  intro c' rest' heq
  rw [List.cons.injEq] at heq
  exact heq.1 ▸ h

theorem spanDigits_of_noDigit {text : List Char} (h : NoDigit text) : spanDigits text = ([], text) := by
  cases text with
  | nil => rfl
  | cons c rest => simp [spanDigits, h c rest rfl]

/-- The digits at the start of a text are exactly those written there. -/
theorem spanDigits_append (digits : List Digit) {rest : List Char} (h : NoDigit rest) :
    spanDigits (digits.map Digit.char ++ rest) = (digits, rest) := by
  induction digits with
  | nil => exact spanDigits_of_noDigit h
  | cons d digits ih => simp [spanDigits, ih]

theorem Digit.ofChar?_eq_some {c : Char} {d : Digit} (h : Digit.ofChar? c = some d) : c = d.char := by
  unfold Digit.ofChar? at h
  split at h
  · rename_i hbounds
    rw [← Option.some.inj h, Digit.char]
    show c = Char.ofNat (48 + (c.toNat - 48))
    rw [Nat.add_sub_cancel' hbounds.1, Char.ofNat_toNat]
  · exact absurd h (by simp)

/-- A run of digits is read as far as it goes, and nothing of it is lost. -/
theorem spanDigits_eq {text rest : List Char} {digits : List Digit}
    (h : spanDigits text = (digits, rest)) : text = digits.map Digit.char ++ rest ∧ NoDigit rest := by
  induction text generalizing digits with
  | nil =>
    obtain ⟨rfl, rfl⟩ := Prod.mk.inj h
    exact ⟨rfl, noDigit_nil⟩
  | cons c text ih =>
    rw [spanDigits] at h
    cases hdigit : Digit.ofChar? c with
    | none =>
      rw [hdigit] at h
      obtain ⟨rfl, rfl⟩ := Prod.mk.inj h
      exact ⟨rfl, noDigit_cons text hdigit⟩
    | some d =>
      rw [hdigit] at h
      obtain ⟨rfl, hrest⟩ := Prod.mk.inj h
      obtain ⟨htext, hstop⟩ := ih (Prod.ext rfl hrest)
      rw [List.map_cons, List.cons_append, ← htext, ← Digit.ofChar?_eq_some hdigit]
      exact ⟨rfl, hstop⟩

/-! ## The parts of a numeral -/

namespace Numeral

/-- A text cannot continue a numeral: it begins with no digit, no point and no exponent mark. -/
structure Ends (text : List Char) : Prop where
  noDigit : NoDigit text
  noPoint : ∀ rest, text ≠ '.' :: rest
  noMark : ∀ c rest, text = c :: rest → c ≠ 'e' ∧ c ≠ 'E'

theorem ends_nil : Ends [] := ⟨noDigit_nil, fun _ h => by simp at h, fun _ _ h => by simp at h⟩

theorem ends_cons {c : Char} (rest : List Char) (hdigit : Digit.ofChar? c = none) (hpoint : c ≠ '.')
    (hsmall : c ≠ 'e') (hcapital : c ≠ 'E') : Ends (c :: rest) := by
  refine ⟨noDigit_cons rest hdigit, fun rest' h => ?_, fun c' rest' h => ?_⟩
  · rw [List.cons.injEq] at h
    exact hpoint h.1
  · rw [List.cons.injEq] at h
    exact ⟨h.1 ▸ hsmall, h.1 ▸ hcapital⟩

theorem readWhole?_chars {digits : List Digit} (h : NoLeadingZero digits) {rest : List Char}
    (hrest : NoDigit rest) :
    readWhole? (digits.map Digit.char ++ rest) = some (digits, rest) := by
  rcases h with rfl | ⟨d, more, rfl, hd⟩
  · rfl
  · have hspan := spanDigits_append (d :: more) hrest
    rw [List.map_cons, List.cons_append] at hspan ⊢
    unfold readWhole?
    split
    · rename_i hzero
      rw [List.cons.injEq] at hzero
      exact absurd hzero.1 (Digit.char_ne_zero d hd)
    · rw [hspan]

/-- The text of a fraction, with its point. -/
def fractionChars : Option (List Digit) → List Char
  | some ds => '.' :: ds.map Digit.char
  | none => []

/-- The text of the sign of an exponent. -/
def exponentSignChars : ExponentSign → List Char
  | .unsigned => []
  | .plus => ['+']
  | .minus => ['-']

/-- The text of an exponent with a mark, if there is one. -/
def markedExponent (mark : Char) : Option Exponent → List Char
  | some e => mark :: (exponentSignChars e.sign ++ e.digits.map Digit.char)
  | none => []

/-- The letters that can mark an exponent. -/
abbrev IsMark (mark : Char) : Prop := mark = 'e' ∨ mark = 'E'

theorem IsMark.noDigit {mark : Char} (h : IsMark mark) : Digit.ofChar? mark = none := by
  rcases h with rfl | rfl <;> decide

theorem IsMark.ne_point {mark : Char} (h : IsMark mark) : mark ≠ '.' := by
  rcases h with rfl | rfl <;> decide

/-- The texts that write a numeral. -/
def Spells (n : Numeral) (text : List Char) : Prop :=
  n.Written ∧ ∃ mark, IsMark mark ∧ text = (if n.negative then ['-'] else [])
    ++ (n.whole.map Digit.char ++ (fractionChars n.fraction ++ markedExponent mark n.exponent))

theorem exponentChars_eq (e : Exponent) : exponentChars e = markedExponent 'e' (some e) := by
  obtain ⟨sign, digits⟩ := e
  cases sign <;> rfl

theorem chars_eq (n : Numeral) : n.chars = (if n.negative then ['-'] else [])
    ++ (n.whole.map Digit.char ++ (fractionChars n.fraction ++ markedExponent 'e' n.exponent)) := by
  obtain ⟨negative, whole, fraction, exponent⟩ := n
  cases fraction <;> cases exponent <;>
    simp [chars, fractionChars, exponentChars_eq, markedExponent]

/-- The text that a numeral is written with is one of them, with a small mark. -/
theorem spells_chars {n : Numeral} (h : n.Written) : n.Spells n.chars :=
  ⟨h, 'e', Or.inl rfl, chars_eq n⟩

theorem readFraction?_chars {fraction : Option (List Digit)}
    (h : ∀ ds, fraction = some ds → ds ≠ []) {rest : List Char} (hrest : NoDigit rest)
    (hpoint : ∀ more, rest ≠ '.' :: more) :
    readFraction? (fractionChars fraction ++ rest) = some (fraction, rest) := by
  cases fraction with
  | none =>
    rw [fractionChars, List.nil_append]
    unfold readFraction?
    split
    · exact absurd rfl (hpoint _)
    · rfl
  | some ds =>
    rw [fractionChars, List.cons_append, readFraction?, spanDigits_append ds hrest]
    cases ds with
    | nil => exact absurd rfl (h [] rfl)
    | cons d ds => rfl

theorem readExponentSign_digits (d : Digit) (text : List Char) :
    readExponentSign (d.char :: text) = (.unsigned, d.char :: text) := by
  unfold readExponentSign
  split
  · rename_i hplus
    rw [List.cons.injEq] at hplus
    exact absurd hplus.1 (Digit.char_ne_plus d)
  · rename_i hminus
    rw [List.cons.injEq] at hminus
    exact absurd hminus.1 (Digit.char_ne_minus d)
  · rfl

theorem readExponentSign_chars (sign : ExponentSign) (d : Digit) (text : List Char) :
    readExponentSign (exponentSignChars sign ++ d.char :: text) = (sign, d.char :: text) := by
  cases sign with
  | unsigned => exact readExponentSign_digits d text
  | plus => rfl
  | minus => rfl

theorem readExponent?_marked {mark : Char} (hmark : IsMark mark) {exponent : Option Exponent}
    (h : ∀ e, exponent = some e → e.digits ≠ []) {rest : List Char} (hrest : Ends rest) :
    readExponent? (markedExponent mark exponent ++ rest) = some (exponent, rest) := by
  cases exponent with
  | none =>
    rw [markedExponent, List.nil_append]
    cases rest with
    | nil => rfl
    | cons c rest =>
      obtain ⟨hsmall, hcapital⟩ := hrest.noMark c rest rfl
      simp [readExponent?, hsmall, hcapital]
  | some e =>
    obtain ⟨sign, digits⟩ := e
    cases digits with
    | nil => exact absurd rfl (h _ rfl)
    | cons d digits =>
      have hspan := spanDigits_append (d :: digits) hrest.noDigit
      rw [List.map_cons, List.cons_append] at hspan
      rw [markedExponent, List.cons_append, List.map_cons, List.append_assoc, List.cons_append,
        readExponent?, if_pos hmark, readExponentSign_chars]
      dsimp only
      rw [hspan]

/-- What follows the digits before the point begins with no digit. -/
theorem noDigit_markedExponent {mark : Char} (hmark : IsMark mark) (exponent : Option Exponent)
    {rest : List Char} (hrest : Ends rest) : NoDigit (markedExponent mark exponent ++ rest) := by
  cases exponent with
  | none => exact hrest.noDigit
  | some e => exact noDigit_cons _ hmark.noDigit

theorem noPoint_markedExponent {mark : Char} (hmark : IsMark mark) (exponent : Option Exponent)
    {rest : List Char} (hrest : Ends rest) (more : List Char) :
    markedExponent mark exponent ++ rest ≠ '.' :: more := by
  cases exponent with
  | none => exact hrest.noPoint more
  | some e => exact fun heq => hmark.ne_point (List.head_eq_of_cons_eq heq)

theorem noDigit_fractionChars (fraction : Option (List Digit)) {rest : List Char}
    (hrest : NoDigit rest) : NoDigit (fractionChars fraction ++ rest) := by
  cases fraction with
  | none => exact hrest
  | some ds => exact noDigit_cons _ (by decide)

theorem readUnsigned?_spelled {mark : Char} (hmark : IsMark mark) {n : Numeral} (h : n.Written)
    {rest : List Char} (hrest : Ends rest) :
    readUnsigned? n.negative
        (n.whole.map Digit.char
          ++ (fractionChars n.fraction ++ (markedExponent mark n.exponent ++ rest)))
      = some (n, rest) := by
  have hexponent := noDigit_markedExponent hmark n.exponent hrest
  rw [readUnsigned?, readWhole?_chars h.whole (noDigit_fractionChars n.fraction hexponent),
    Option.bind_eq_bind, Option.bind_some]
  dsimp only
  rw [readFraction?_chars h.fraction hexponent (noPoint_markedExponent hmark n.exponent hrest),
    Option.bind_eq_bind, Option.bind_some]
  dsimp only
  rw [readExponent?_marked hmark h.exponent hrest]
  rfl

/-- The digits before the point begin with a digit. -/
theorem whole_front {n : Numeral} (h : n.Written) (text : List Char) :
    ∃ (d : Digit) (rest : List Char), n.whole.map Digit.char ++ text = d.char :: rest := by
  rcases h.whole with hwhole | ⟨d, more, hwhole, _⟩
  · exact ⟨Digit.zero, text, by rw [hwhole]; rfl⟩
  · exact ⟨d, more.map Digit.char ++ text, by rw [hwhole]; rfl⟩

/-- A numeral begins with its sign or with a digit. -/
theorem Spells.front {n : Numeral} {text : List Char} (h : n.Spells text) :
    (∃ rest, text = '-' :: rest) ∨ ∃ d rest, text = Digit.char d :: rest := by
  obtain ⟨hwritten, mark, _, rfl⟩ := h
  cases hsign : n.negative with
  | true => exact Or.inl ⟨_, rfl⟩
  | false => exact Or.inr (whole_front hwritten _)

/-- **Reading a numeral.** -/
theorem read?_spelled {n : Numeral} {text : List Char} (h : n.Spells text) {rest : List Char}
    (hrest : Ends rest) : read? (text ++ rest) = some (n, rest) := by
  obtain ⟨hwritten, mark, hmark, rfl⟩ := h
  have hunsigned := readUnsigned?_spelled hmark hwritten hrest
  rw [List.append_assoc, List.append_assoc, List.append_assoc]
  cases hsign : n.negative with
  | true =>
    rw [hsign] at hunsigned
    exact hunsigned
  | false =>
    -- A numeral without a sign begins with a digit, so the reader takes none for a sign.
    obtain ⟨d, more, hfront⟩ := whole_front hwritten
      (fractionChars n.fraction ++ (markedExponent mark n.exponent ++ rest))
    rw [hsign, hfront] at hunsigned
    rw [if_neg Bool.false_ne_true, List.nil_append, hfront]
    unfold read?
    split
    · rename_i hminus
      exact absurd (List.head_eq_of_cons_eq hminus) (Digit.char_ne_minus d)
    · exact hunsigned

/-! ## What was read -/

section

variable {text rest : List Char}

theorem readWhole?_eq {digits : List Digit} (h : readWhole? text = some (digits, rest)) :
    NoLeadingZero digits ∧ text = digits.map Digit.char ++ rest := by
  unfold readWhole? at h
  split at h
  · obtain ⟨rfl, rfl⟩ := Prod.mk.inj (Option.some.inj h)
    exact ⟨Or.inl rfl, rfl⟩
  · rename_i hzero
    split at h
    · exact absurd h (by simp)
    · rename_i hne
      obtain ⟨htext, _⟩ := spanDigits_eq (Option.some.inj h)
      cases digits with
      | nil => exact absurd (Option.some.inj h) (hne rest)
      | cons d more =>
        refine ⟨Or.inr ⟨d, more, rfl, ?_⟩, htext⟩
        rintro rfl
        exact hzero (more.map Digit.char ++ rest) htext

theorem readFraction?_eq {fraction : Option (List Digit)}
    (h : readFraction? text = some (fraction, rest)) :
    (∀ ds, fraction = some ds → ds ≠ []) ∧ text = fractionChars fraction ++ rest := by
  unfold readFraction? at h
  split at h
  · split at h
    · exact absurd h (by simp)
    · rename_i hne hspan
      obtain ⟨rfl, rfl⟩ := Prod.mk.inj (Option.some.inj h)
      exact ⟨fun ds hds => Option.some.inj hds ▸ hne, by
        rw [fractionChars, List.cons_append, ← (spanDigits_eq hspan).1]⟩
  · obtain ⟨rfl, rfl⟩ := Prod.mk.inj (Option.some.inj h)
    exact ⟨fun ds hds => absurd hds (by simp), rfl⟩

theorem readExponentSign_eq {sign : ExponentSign} (h : readExponentSign text = (sign, rest)) :
    text = exponentSignChars sign ++ rest := by
  unfold readExponentSign at h
  split at h
  all_goals
    obtain ⟨rfl, rfl⟩ := Prod.mk.inj h
    rfl

theorem readExponent?_eq {exponent : Option Exponent}
    (h : readExponent? text = some (exponent, rest)) :
    (∀ e, exponent = some e → e.digits ≠ [])
      ∧ ∃ mark, IsMark mark ∧ text = markedExponent mark exponent ++ rest := by
  unfold readExponent? at h
  split at h
  · rename_i c text
    split at h
    · rename_i hmark
      dsimp only at h
      split at h
      · exact absurd h (by simp)
      · rename_i hne hspan
        obtain ⟨rfl, rfl⟩ := Prod.mk.inj (Option.some.inj h)
        refine ⟨fun e he => Option.some.inj he ▸ hne, c, hmark, ?_⟩
        rw [markedExponent, List.cons_append, List.append_assoc, ← (spanDigits_eq hspan).1]
        exact congrArg (List.cons c) (readExponentSign_eq rfl)
    · obtain ⟨rfl, rfl⟩ := Prod.mk.inj (Option.some.inj h)
      exact ⟨fun e he => absurd he (by simp), 'e', Or.inl rfl, rfl⟩
  · obtain ⟨rfl, rfl⟩ := Prod.mk.inj (Option.some.inj h)
    exact ⟨fun e he => absurd he (by simp), 'e', Or.inl rfl, rfl⟩

theorem readUnsigned?_eq {negative : Bool} {n : Numeral}
    (h : readUnsigned? negative text = some (n, rest)) :
    n.negative = negative ∧ n.Written ∧ ∃ mark, IsMark mark ∧ text = n.whole.map Digit.char
      ++ (fractionChars n.fraction ++ (markedExponent mark n.exponent ++ rest)) := by
  simp only [readUnsigned?, Option.bind_eq_bind, Option.bind_eq_some_iff, Option.some.injEq,
    Prod.mk.injEq, Prod.exists] at h
  obtain ⟨whole, afterWhole, hwhole, fraction, afterFraction, hfraction, exponent, afterExponent,
    hexponent, rfl, rfl⟩ := h
  obtain ⟨hleading, rfl⟩ := readWhole?_eq hwhole
  obtain ⟨hdigits, rfl⟩ := readFraction?_eq hfraction
  obtain ⟨hexponentDigits, mark, hmark, rfl⟩ := readExponent?_eq hexponent
  exact ⟨rfl, ⟨hleading, hdigits, hexponentDigits⟩, mark, hmark, rfl⟩

/-- **Only numerals are read.** -/
theorem spells_of_read? {n : Numeral} (h : read? text = some (n, rest)) :
    ∃ spelled, n.Spells spelled ∧ text = spelled ++ rest := by
  unfold read? at h
  split at h
  all_goals
    obtain ⟨hsign, hwritten, mark, hmark, rfl⟩ := readUnsigned?_eq h
    refine ⟨_, ⟨hwritten, mark, hmark, rfl⟩, ?_⟩
    rw [hsign]
    simp

end

end Numeral

end AuditTrail.Number
