import AuditTrail.Proofs.Number.Nearest
import AuditTrail.Proofs.Number.Reading
import AuditTrail.Replay.Normalize

/-!
# Texts that stand for numbers

Two grammars say which texts these are. An integer is written with an optional sign and digits, and has to
fit into 64 bits (`WritesInteger`). A double is written as a numeral that may be looser than those of JSON:
a plus in front of it, zeros in front of its digits, digits on one side of the point only
(`Numeral.LooselySpells`); its value is the double nearest to that number, and there has to be one
(`WritesDouble`). The words for infinities and for no number are not among these texts, and neither is a
number too large to be finite.

> The readers read just these texts (`integer?_eq_some`, `double?_eq_some`).
-/

namespace AuditTrail

open Number (Digit Double Exponent ExponentSign Nearest NoDigit Numeral spanDigits unitsInOne valueOf)

/-! ## The grammars -/

/-- The texts of a sign: a minus is written, a plus may be. -/
inductive Replay.WritesSign : Bool → List Char → Prop
  | none : WritesSign false []
  | plus : WritesSign false ['+']
  | minus : WritesSign true ['-']

/-- A number with a sign. -/
def Replay.signed (negative : Bool) (n : Nat) : Int := if negative then -n else n

/-- The texts that write an integer of 64 bits. -/
def Replay.WritesInteger (i : Int) (text : List Char) : Prop :=
  ∃ negative sign digits, WritesSign negative sign ∧ digits ≠ [] ∧ text = sign ++ digits.map Digit.char
    ∧ i = signed negative (valueOf digits) ∧ -9223372036854775808 ≤ i ∧ i ≤ 9223372036854775807

/-- The texts that write a numeral in the looser grammar. -/
def Number.Numeral.LooselySpells (n : Numeral) (text : List Char) : Prop :=
  n.digits ≠ [] ∧ (∀ e, n.exponent = some e → e.digits ≠ []) ∧
    ∃ sign mark, Replay.WritesSign n.negative sign ∧ Numeral.IsMark mark ∧ text = sign
      ++ (n.whole.map Digit.char ++ (Numeral.fractionChars n.fraction ++ Numeral.markedExponent mark n.exponent))

/-- The texts that write a finite double: it is the one nearest to the number that is written. -/
def Replay.WritesDouble (d : Double) (text : List Char) : Prop :=
  ∃ n : Numeral, n.LooselySpells text ∧ d.negative = n.negative ∧ Nearest d.ordinal (n.magnitude * unitsInOne)

namespace Replay

variable {text rest sign : List Char} {negative : Bool} {digits : List Digit}

/-! ## Signs -/

/-- A text does not begin with a sign. -/
def NoSign (text : List Char) : Prop := ∀ c rest, text = c :: rest → c ≠ '-' ∧ c ≠ '+'

theorem noSign_cons {c : Char} (rest : List Char) (hminus : c ≠ '-') (hplus : c ≠ '+') : NoSign (c :: rest) := by
  intro c' rest' h
  rw [List.cons.injEq] at h
  exact h.1 ▸ ⟨hminus, hplus⟩

theorem noSign_digits (h : digits ≠ []) (rest : List Char) : NoSign (digits.map Digit.char ++ rest) := by
  cases digits with
  | nil => exact absurd rfl h
  | cons d more => exact noSign_cons _ (Digit.char_ne_minus d) (Digit.char_ne_plus d)

theorem splitSign_append (h : WritesSign negative sign) (hrest : NoSign rest) :
    splitSign (sign ++ rest) = (negative, rest) := by
  cases h with
  | none =>
    rw [List.nil_append]
    unfold splitSign
    split
    · exact absurd rfl (hrest _ _ rfl).1
    · exact absurd rfl (hrest _ _ rfl).2
    · rfl
  | plus => rfl
  | minus => rfl

theorem exists_sign (text : List Char) :
    ∃ sign, WritesSign (splitSign text).1 sign ∧ text = sign ++ (splitSign text).2 := by
  unfold splitSign
  split
  · exact ⟨_, .minus, rfl⟩
  · exact ⟨_, .plus, rfl⟩
  · exact ⟨_, .none, rfl⟩

/-! ## Integers -/

/-- What integers and exponents have in common: a sign and digits, and nothing after them. -/
def signedDigits? (text : List Char) : Option (Bool × List Digit) :=
  match spanDigits (splitSign text).2 with
  | ([], _) => none
  | (digits, []) => some ((splitSign text).1, digits)
  | _ => none

theorem signedDigits?_eq_some : signedDigits? text = some (negative, digits)
    ↔ digits ≠ [] ∧ ∃ sign, WritesSign negative sign ∧ text = sign ++ digits.map Digit.char := by
  unfold signedDigits?
  constructor
  · intro h
    split at h
    · exact absurd h (by simp)
    · rename_i found hne hspan
      obtain ⟨rfl, rfl⟩ := Prod.mk.inj (Option.some.inj h)
      obtain ⟨sign, hsign, htext⟩ := exists_sign text
      rw [(Number.spanDigits_eq hspan).1, List.append_nil] at htext
      exact ⟨hne, sign, hsign, htext⟩
    · exact absurd h (by simp)
  · rintro ⟨hne, sign, hsign, rfl⟩
    have hspan := Number.spanDigits_append digits Number.noDigit_nil
    rw [← List.append_nil (digits.map Digit.char), splitSign_append hsign (noSign_digits hne []), hspan]
    cases digits with
    | nil => exact absurd rfl hne
    | cons d more => rfl

theorem integer?_eq (text : List Char) : integer? text = (signedDigits? text).bind fun (negative, digits) =>
    if -9223372036854775808 ≤ signed negative (valueOf digits)
        ∧ signed negative (valueOf digits) ≤ 9223372036854775807
      then some (signed negative (valueOf digits)) else none := by
  unfold integer? signedDigits?
  dsimp only
  obtain ⟨digits, after⟩ := spanDigits (splitSign text).2
  cases digits <;> cases after <;> rfl

/-- **Just the integers of 64 bits are read as integers.** -/
theorem integer?_eq_some {i : Int} : integer? text = some i ↔ WritesInteger i text := by
  rw [integer?_eq, Option.bind_eq_some_iff]
  constructor
  · rintro ⟨⟨negative, digits⟩, hdigits, h⟩
    obtain ⟨hne, sign, hsign, htext⟩ := signedDigits?_eq_some.mp hdigits
    dsimp only at h
    split at h
    · rename_i hrange
      rw [Option.some.injEq] at h
      exact ⟨negative, sign, digits, hsign, hne, htext, h.symm, h ▸ hrange⟩
    · exact absurd h (by simp)
  · rintro ⟨negative, sign, digits, hsign, hne, htext, rfl, hrange⟩
    exact ⟨(negative, digits), signedDigits?_eq_some.mpr ⟨hne, sign, hsign, htext⟩, if_pos hrange⟩

/-! ## Doubles -/

/-- The sign of an exponent is a sign. -/
theorem writesSign_exponent (s : ExponentSign) :
    ∃ negative, WritesSign negative (Numeral.exponentSignChars s)
      ∧ ∀ digits, Exponent.value ⟨s, digits⟩ = signed negative (valueOf digits) := by
  cases s with
  | unsigned => exact ⟨false, .none, fun _ => rfl⟩
  | plus => exact ⟨false, .plus, fun _ => rfl⟩
  | minus => exact ⟨true, .minus, fun _ => rfl⟩

theorem exists_exponentSign (h : WritesSign negative sign) :
    ∃ s, sign = Numeral.exponentSignChars s ∧ ∀ digits, Exponent.value ⟨s, digits⟩ = signed negative (valueOf digits) := by
  cases h with
  | none => exact ⟨.unsigned, rfl, fun _ => rfl⟩
  | plus => exact ⟨.plus, rfl, fun _ => rfl⟩
  | minus => exact ⟨.minus, rfl, fun _ => rfl⟩

theorem exponent?_marked {mark : Char} (hmark : Numeral.IsMark mark) (text : List Char) :
    exponent? (mark :: text)
      = (signedDigits? text).map fun (negative, digits) => signed negative (valueOf digits) := by
  unfold exponent? signedDigits?
  dsimp only
  rw [if_pos hmark]
  obtain ⟨digits, after⟩ := spanDigits (splitSign text).2
  cases digits <;> cases after <;> rfl

/-- What may stand behind the digits of a double: nothing or an exponent. -/
theorem exponent?_eq_some {value : Int} : exponent? text = some value
    ↔ ∃ (e : Option Exponent) (mark : Char), (∀ e', e = some e' → e'.digits ≠ []) ∧ Numeral.IsMark mark
      ∧ text = Numeral.markedExponent mark e ∧ value = (e.map Exponent.value).getD 0 := by
  cases text with
  | nil =>
    constructor
    · intro h
      exact ⟨none, 'e', by simp, Or.inl rfl, rfl, (Option.some.inj h).symm⟩
    · rintro ⟨e, mark, _, _, htext, rfl⟩
      cases e with
      | none => rfl
      | some e => exact absurd htext (by simp [Numeral.markedExponent])
  | cons c text =>
    constructor
    · intro h
      by_cases hmark : Numeral.IsMark c
      · rw [exponent?_marked hmark, Option.map_eq_some_iff] at h
        obtain ⟨⟨negative, digits⟩, hdigits, rfl⟩ := h
        obtain ⟨hne, sign, hsign, rfl⟩ := signedDigits?_eq_some.mp hdigits
        obtain ⟨s, rfl, hvalue⟩ := exists_exponentSign hsign
        refine ⟨some ⟨s, digits⟩, c, ?_, hmark, rfl, (hvalue digits).symm⟩
        rintro _ ⟨⟩
        exact hne
      · exact absurd h (by simp [exponent?, hmark])
    · rintro ⟨e, mark, hne, hmark, htext, rfl⟩
      cases e with
      | none => exact absurd htext (by simp [Numeral.markedExponent])
      | some e =>
        obtain ⟨rfl, rfl⟩ := List.cons.inj htext
        obtain ⟨negative, hsign, hvalue⟩ := writesSign_exponent e.sign
        rw [exponent?_marked hmark, signedDigits?_eq_some.mpr ⟨hne e rfl, _, hsign, rfl⟩]
        exact congrArg some (hvalue e.digits).symm

/-- The digits behind a point, if there is one, and what follows them. -/
def spanFraction (text : List Char) : List Digit × List Char :=
  match text with
  | '.' :: rest => spanDigits rest
  | rest => ([], rest)

theorem exists_fraction (text : List Char) : ∃ fraction : Option (List Digit),
    fraction.getD [] = (spanFraction text).1 ∧ text = Numeral.fractionChars fraction ++ (spanFraction text).2 := by
  unfold spanFraction
  split
  · rename_i rest
    refine ⟨some (spanDigits rest).1, rfl, ?_⟩
    rw [Numeral.fractionChars, List.cons_append, ← (Number.spanDigits_eq (Prod.mk.eta (p := spanDigits rest)).symm).1]
  · exact ⟨none, rfl, rfl⟩

theorem spanFraction_append (fraction : Option (List Digit)) (hdigit : NoDigit rest)
    (hpoint : ∀ more, rest ≠ '.' :: more) :
    spanFraction (Numeral.fractionChars fraction ++ rest) = (fraction.getD [], rest) := by
  cases fraction with
  | some ds => exact Number.spanDigits_append ds hdigit
  | none =>
    rw [Numeral.fractionChars, List.nil_append]
    unfold spanFraction
    split
    · exact absurd rfl (hpoint _)
    · rfl

theorem double?_eq (text : List Char) : double? text =
    let whole := spanDigits (splitSign text).2
    let fraction := spanFraction whole.2
    if whole.1 ++ fraction.1 = [] then none
    else (exponent? fraction.2).bind fun exponent => Double.ofDecimal? (splitSign text).1
      (valueOf (whole.1 ++ fraction.1)) (exponent - fraction.1.length) := by
  have hempty : ∀ a b : List Digit, ((a.isEmpty && b.isEmpty) = true) ↔ a ++ b = [] := by simp
  unfold double? spanFraction
  simp only [← hempty]
  rfl

/-- The digits of a numeral, or its point if there are none in front of it, come right behind the sign. -/
theorem noSign_of_digits {n : Numeral} (h : n.digits ≠ []) (rest : List Char) :
    NoSign (n.whole.map Digit.char ++ (Numeral.fractionChars n.fraction ++ rest)) := by
  cases hwhole : n.whole with
  | cons d more => exact noSign_digits (List.cons_ne_nil d more) _
  | nil =>
    cases hfraction : n.fraction with
    | none => exact absurd (by simp [Numeral.digits, hwhole, hfraction]) h
    | some ds => exact noSign_cons _ (by decide) (by decide)

/-- **Just the finite doubles are read as doubles.** -/
theorem double?_eq_some {d : Double} : double? text = some d ↔ WritesDouble d text := by
  rw [double?_eq]
  dsimp only
  constructor
  · intro h
    split at h
    · exact absurd h (by simp)
    · rename_i hne
      obtain ⟨exponent, hexponent, hdecimal⟩ := Option.bind_eq_some_iff.mp h
      obtain ⟨e, mark, hdigits, hmark, htail, rfl⟩ := exponent?_eq_some.mp hexponent
      obtain ⟨sign, hsign, htext⟩ := exists_sign text
      have hspan := (Number.spanDigits_eq (Prod.mk.eta (p := spanDigits (splitSign text).2)).symm).1
      obtain ⟨fraction, hfraction, hpoint⟩ := exists_fraction (spanDigits (splitSign text).2).2
      rw [hspan, hpoint, htail] at htext
      rw [← hfraction] at hne hdecimal
      exact ⟨⟨(splitSign text).1, (spanDigits (splitSign text).2).1, fraction, e⟩,
        ⟨hne, hdigits, sign, mark, hsign, hmark, htext⟩, Number.ofDecimal?_eq_some.mp hdecimal⟩
  · rintro ⟨n, ⟨hne, hdigits, sign, mark, hsign, hmark, rfl⟩, hnearest⟩
    have hexponent := Numeral.noDigit_markedExponent hmark n.exponent Numeral.ends_nil
    have hpoint := Numeral.noPoint_markedExponent hmark n.exponent Numeral.ends_nil
    rw [List.append_nil] at hexponent hpoint
    have hspan := Number.spanDigits_append n.whole (Numeral.noDigit_fractionChars n.fraction hexponent)
    rw [splitSign_append hsign (noSign_of_digits hne _)]
    dsimp only
    rw [hspan]
    dsimp only
    rw [spanFraction_append n.fraction hexponent hpoint]
    dsimp only
    rw [show n.whole ++ n.fraction.getD [] = n.digits from rfl, if_neg hne,
      exponent?_eq_some.mpr ⟨n.exponent, mark, hdigits, hmark, rfl, rfl⟩, Option.bind_some]
    exact Number.ofDecimal?_eq_some.mpr hnearest

end Replay

end AuditTrail
