import AuditTrail.Proofs.Json.Numbers
import AuditTrail.Proofs.Number.Shape

/-!
# The text of a number

A number of a value is written in one of two ways: an integer up to `2 ^ 53` by its decimal digits, and
everything else by the canonical layout of the shortest digits of its double. This file says what the layout
makes of any digits and exponent, and that the two ways agree where both are possible (`number_layout`).
-/

namespace AuditTrail

/-! ## Decimal digits -/

namespace Number

theorem Digit.char_eq : ∀ d : Digit, d.char = Nat.digitChar d.val := by decide

theorem map_char_digitsUpTo : ∀ (places n : Nat), n < 10 ^ (places + 1) →
    (digitsUpTo (places + 1) n).map Digit.char = Nat.toDigits 10 n
  | places, n, h => by
    rw [digitsUpTo]
    split
    · rename_i hsmall
      rw [List.map_singleton, Digit.char_eq, Nat.toDigits_of_lt_base hsmall]
    · rename_i hlarge
      cases places with
      | zero => exact absurd h hlarge
      | succ places =>
        have hquot : n / 10 < 10 ^ (places + 1) := by
          rw [Nat.div_lt_iff_lt_mul (by decide), ← pow_succ]
          exact h
        rw [List.map_append, map_char_digitsUpTo places (n / 10) hquot, List.map_singleton, Digit.char_eq,
          ← Nat.toDigits_of_base_le (by decide) (Nat.le_of_not_lt hlarge)]

/-- The digits of a natural number are its decimal text. -/
theorem map_char_digitsOf (n : Nat) : (digitsOf n).map Digit.char = (toString n).toList := by
  rw [digitsOf, map_char_digitsUpTo _ n (lt_pow_log2 n), Nat.toString_eq_repr, Nat.repr_eq_ofList_toDigits,
    String.toList_ofList]

/-- **The numeral of an integer is its decimal text.** -/
theorem Numeral.chars_ofInt (i : Int) : (Numeral.ofInt i).chars = (toString i).toList := by
  have hchars : (Numeral.ofInt i).chars
      = (if decide (i < 0) then ['-'] else []) ++ (toString i.natAbs).toList := by
    rw [Numeral.chars_eq, ← map_char_digitsOf]
    simp [Numeral.ofInt, Numeral.fractionChars, Numeral.markedExponent]
  rw [hchars, Int.toString_eq_repr, Int.repr_eq_if, Nat.toString_eq_repr]
  by_cases hneg : i < 0
  · rw [if_pos (decide_eq_true hneg), if_neg (Int.not_le.mpr hneg), show (-i).toNat = i.natAbs by omega,
      String.toList_append]
    rfl
  · rw [if_neg (by simpa using hneg), if_pos (Int.not_lt.mp hneg), show i.toNat = i.natAbs by omega,
      List.nil_append]

end Number

namespace Json

/-! ## Two ways to write an integer -/

/-- What the digits of an integer, its decimal text and the text of its double have to do with each other. -/
structure WrittenBothWays (i : Int) : Prop where
  /-- Without the zeros at their end, its digits are the form of its magnitude. -/
  normal : (Number.Scientific.ofDecimal i.natAbs 0).Normal
  value : (Number.Scientific.ofDecimal i.natAbs 0).magnitude = i.natAbs
  /-- It is written as its decimal text. -/
  verbatim : canonicalNumeral (.int i) = .ofInt i
  decimal : (Number.Numeral.ofInt i).chars = (toString i).toList
  /-- That is what the canonical layout makes of its digits, and of the shortest digits of its double. -/
  layout : Number.Layout.canonical.numeral (decide (i < 0)) (Number.Scientific.ofDecimal i.natAbs 0)
    = .ofInt i
  double : ∃ d, Number.Double.ofInt? i = some d ∧ canonicalDouble d = .ofInt i

theorem writtenBothWays {i : Int} (hpos : 1 ≤ i.natAbs) (hle : i.natAbs ≤ 2 ^ 53) : WrittenBothWays i where
  normal := Number.Scientific.normal_ofDecimal hpos 0
  value := by rw [Number.Scientific.magnitude_ofDecimal, zpow_zero, mul_one]
  verbatim := if_pos hle
  decimal := Number.Numeral.chars_ofInt i
  layout := layout_ofDecimal hle
  double := canonicalDouble_ofInt hle

/-! ## The canonical layout -/

/-- **The layout of a number is exact and unambiguous.** Digits without a zero at either end and any exponent
are written as a numeral of JSON that denotes just their number, in place or with an exponent as the exponent
alone decides, and no two are written alike. All nonzero doubles are written so, and up to `2 ^ 53` an integer
is written alike as an integer and as a double. -/
theorem number_layout :
    (∀ negative s, Number.Scientific.Normal s →
      Number.LaidOut negative s (Number.Layout.canonical.numeral negative s))
    ∧ (∀ negative negative' s s', Number.Scientific.Normal s → Number.Scientific.Normal s' →
      (Number.Layout.canonical.numeral negative s).chars
        = (Number.Layout.canonical.numeral negative' s').chars → negative = negative' ∧ s = s')
    ∧ (∀ d : Number.Double, 0 < d.ordinal → (Number.shortest .up d.ordinal).Normal
      ∧ canonicalDouble d = Number.Layout.canonical.numeral d.negative (Number.shortest .up d.ordinal))
    ∧ ∀ i : Int, 1 ≤ i.natAbs → i.natAbs ≤ 2 ^ 53 → WrittenBothWays i := by
  refine ⟨?_, ?_, ?_, ?_⟩
  · intro negative s h
    exact Number.laidOut_numeral negative h
  · intro negative negative' s s' h h' htext
    exact Number.numeral_injective h h' htext
  · intro d hpos
    exact ⟨Number.normal_shortest .up hpos, canonicalDouble_of_pos hpos⟩
  · intro i hpos hle
    exact writtenBothWays hpos hle

/-- The last exponent that is written out and the first that is not, at either end; the least integer that is
written digit by digit; and the least double of all. -/
theorem number_layout_thresholds :
    let digits := fun exponent => (⟨[1, 2], exponent⟩ : Number.Scientific)
    let text := fun exponent => (Number.Layout.canonical.numeral true (digits exponent)).chars
    let least : Number.Double := ⟨false, 1, by decide⟩
    (∀ exponent, Number.LaidOut true (digits exponent)
        (Number.Layout.canonical.numeral true (digits exponent)))
      ∧ text (-7) = "-1.2e-7".toList ∧ text (-6) = "-0.0000012".toList
      ∧ text 20 = "-120000000000000000000".toList ∧ text 21 = "-1.2e+21".toList
      ∧ text (-6) ≠ text (-7)
      ∧ (Number.Numeral.ofInt (-9007199254740992)).chars = "-9007199254740992".toList
      ∧ WrittenBothWays (-9007199254740992)
      ∧ Number.shortest .up 1 = ⟨[5], -324⟩
      ∧ (canonicalDouble least).chars = "5e-324".toList := by
  intro digits text least
  have hnormal : ∀ exponent, (digits exponent).Normal := fun exponent =>
    ⟨⟨1, [2], rfl, by decide⟩, ⟨[1], 2, rfl, by decide⟩⟩
  obtain ⟨hlaid, hinjective, hdouble, hinteger⟩ := number_layout
  have hleast : Number.shortest .up 1 = ⟨[5], -324⟩ := by decide +kernel
  refine ⟨fun exponent => hlaid true _ (hnormal exponent), by decide +kernel, by decide +kernel,
    by decide +kernel, by decide +kernel, fun heq => ?_, by decide +kernel, hinteger _ (by decide) (by decide),
    hleast, ?_⟩
  · exact absurd (hinjective _ _ _ _ (hnormal _) (hnormal _) heq).2 (by decide)
  · rw [(hdouble least Nat.one_pos).2, hleast]
    decide +kernel

end Json

end AuditTrail
