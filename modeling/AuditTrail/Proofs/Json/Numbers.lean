import AuditTrail.Json.Canonical
import AuditTrail.Proofs.Json.Value
import AuditTrail.Proofs.Number.Layout
import AuditTrail.Proofs.Number.Nearest

/-!
# One numeral for each double

A number is kept as an integer or as a double, and one double has spellings of both kinds. What two
spellings share is the double they denote (`Json.Number.inDoubles`), in which the two zeros are one.
The canonical numeral of a number

> depends on the double alone (`canonicalNumeral_inDoubles`) and reads back as a number that denotes it
> (`number?_canonicalDouble`).

The reader may take the numeral for an integer where the number was a double, and does so for every
double whose digits are written out without a point. So both facts speak of doubles and never of the
kind of the number.
-/

namespace AuditTrail

/-- A double without the sign of a zero. -/
def Number.Double.plainZero (d : Number.Double) : Number.Double := if d.isZero then .zero false else d

namespace Json

/-- A number as the double it denotes. -/
def Number.inDoubles : Json.Number → Json.Number
  | .int i =>
    match Number.Double.ofInt? i with
    | some d => .double d.plainZero
    | none => .int i
  | .double d => .double d.plainZero

/-! ## Doubles -/

theorem plainZero_of_isZero {d : Number.Double} (h : d.isZero = true) : d.plainZero = .zero false :=
  if_pos h

theorem plainZero_of_pos {d : Number.Double} (h : 0 < d.ordinal) : d.plainZero = d :=
  if_neg (by simp [Number.Double.isZero, h.ne'])

theorem eq_zero_or_pos (d : Number.Double) : d.isZero = true ∨ 0 < d.ordinal := by
  rcases Nat.eq_zero_or_pos d.ordinal with h | h
  · exact Or.inl (by simp [Number.Double.isZero, h])
  · exact Or.inr h

theorem plainZero_plainZero (d : Number.Double) : d.plainZero.plainZero = d.plainZero := by
  rcases eq_zero_or_pos d with h | h
  · rw [plainZero_of_isZero h]
    exact plainZero_of_isZero rfl
  · rw [plainZero_of_pos h, plainZero_of_pos h]

theorem canonicalDouble_of_isZero {d : Number.Double} (h : d.isZero = true) :
    canonicalDouble d = .ofInt 0 := if_pos h

theorem canonicalDouble_plainZero (d : Number.Double) :
    canonicalDouble d.plainZero = canonicalDouble d := by
  rcases eq_zero_or_pos d with h | h
  · rw [plainZero_of_isZero h, canonicalDouble_of_isZero h]
    exact canonicalDouble_of_isZero rfl
  · rw [plainZero_of_pos h]

/-- The numeral of a nonzero double is the layout of its shortest digits. -/
theorem canonicalDouble_of_pos {d : Number.Double} (h : 0 < d.ordinal) :
    canonicalDouble d
      = Number.Layout.canonical.numeral d.negative (Number.shortest .up d.ordinal) := by
  have hzero : ¬ d.isZero = true := by simp [Number.Double.isZero, h.ne']
  rw [canonicalDouble, doubleNumeral, if_neg hzero, if_neg hzero]

theorem written_canonicalDouble (d : Number.Double) : (canonicalDouble d).Written := by
  rcases eq_zero_or_pos d with h | h
  · rw [canonicalDouble_of_isZero h]
    exact Number.Numeral.written_ofInt 0
  · obtain ⟨digit, rest, hdigits, hdigit⟩ := Number.shortest_front .up h
    rw [canonicalDouble_of_pos h]
    exact Number.Layout.written_numeral hdigits hdigit

/-! ## Integers -/

/-- An exact integer is short enough to be laid out without an exponent. -/
theorem layout_ofDecimal {i : Int} (hle : i.natAbs ≤ 2 ^ 53) :
    Number.Layout.canonical.numeral (decide (i < 0)) (Number.Scientific.ofDecimal i.natAbs 0)
      = .ofInt i := by
  have hlength : (Number.digitsOf i.natAbs).length ≤ 20 :=
    Number.length_digitsOf_le (lt_of_le_of_lt hle (by decide))
  have hgreatest : ((Number.digitsOf i.natAbs).length : Int) ≤ Number.Layout.canonical.greatest := by
    show _ ≤ (20 : Int)
    omega
  exact Number.Layout.numeral_ofDecimal _ (by decide) hgreatest rfl

/-- Up to the greatest exact integer, an integer's own numeral is the one of its double. -/
theorem canonicalDouble_ofInt {i : Int} (h : i.natAbs ≤ exactInteger) :
    ∃ d, Number.Double.ofInt? i = some d ∧ canonicalDouble d = .ofInt i := by
  rcases Nat.eq_zero_or_pos i.natAbs with hzero | hpos
  · have hi : i = 0 := Int.natAbs_eq_zero.mp hzero
    subst hi
    exact ⟨.zero false, rfl, rfl⟩
  · have hle : i.natAbs ≤ 2 ^ 53 := h
    obtain ⟨ordinal, hord, hbound, hunits, hshortest⟩ := Number.shortest_of_integer .up hpos hle
    have hholds := Number.RoundingInterval.around_holds_value hord
    have hvalue : ((2 * Number.unitsAt ordinal : ℕ) : ℚ)
        = (i.natAbs : ℚ) * 10 ^ (0 : Int) * Number.halfUnits := by
      rw [hunits, Number.halfUnits]
      push_cast
      ring
    rw [hvalue] at hholds
    refine ⟨⟨decide (i < 0), ordinal, hbound⟩, Number.ofDecimal?_eq _ hord hbound hholds, ?_⟩
    rw [canonicalDouble_of_pos hord]
    dsimp only
    rw [hshortest]
    exact layout_ofDecimal hle

/-- Every number of a value denotes a double, and its canonical numeral is the one of that double. -/
theorem exists_inDoubles {n : Json.Number} (h : WellFormed (.number n)) :
    ∃ d, n.inDoubles = .double d ∧ d.plainZero = d ∧ canonicalNumeral n = canonicalDouble d := by
  cases n with
  | int i =>
    have hrange : i.natAbs ≤ 2 ^ 64 := by
      have hbounds : -9223372036854775808 ≤ i ∧ i ≤ 18446744073709551615 := of_decide_eq_true h
      omega
    obtain ⟨d, hd⟩ := Number.ofInt?_isSome hrange
    refine ⟨d.plainZero, by simp only [Number.inDoubles, hd], plainZero_plainZero d, ?_⟩
    -- Beyond the exact integers the numeral is made from the double in the first place.
    rw [canonicalDouble_plainZero]
    by_cases hexact : i.natAbs ≤ exactInteger
    · obtain ⟨d', hd', hnumeral⟩ := canonicalDouble_ofInt hexact
      rw [hd] at hd'
      rw [Option.some.inj hd', hnumeral, canonicalNumeral, if_pos hexact]
    · rw [canonicalNumeral, if_neg hexact, hd]
  | double d =>
    exact ⟨d.plainZero, rfl, plainZero_plainZero d, (canonicalDouble_plainZero d).symm⟩

/-- **The canonical numeral depends on the double alone.** -/
theorem canonicalNumeral_inDoubles {n : Json.Number} (h : WellFormed (.number n)) :
    canonicalNumeral n.inDoubles = canonicalNumeral n := by
  obtain ⟨d, hd, _, hnumeral⟩ := exists_inDoubles h
  rw [hd, hnumeral, canonicalNumeral]

theorem written_canonicalNumeral {n : Json.Number} (h : WellFormed (.number n)) :
    (canonicalNumeral n).Written := by
  obtain ⟨d, _, _, hnumeral⟩ := exists_inDoubles h
  rw [hnumeral]
  exact written_canonicalDouble d

/-! ## Reading back -/

/-- The shortest digits of a double, however they are laid out, lie in its rounding interval. -/
theorem holds_numeral (layout : Number.Layout) (tie : Number.Tie) {d : Number.Double}
    (h : 0 < d.ordinal) :
    (Number.RoundingInterval.around d.ordinal).Holds
      ((layout.numeral d.negative (Number.shortest tie d.ordinal)).coefficient
        * 10 ^ (layout.numeral d.negative (Number.shortest tie d.ordinal)).scale
        * Number.halfUnits) := by
  obtain ⟨digit, rest, hdigits, _⟩ := Number.shortest_front tie h
  have hmagnitude : (layout.numeral d.negative (Number.shortest tie d.ordinal)).magnitude
      = (Number.shortest tie d.ordinal).magnitude := Number.Layout.magnitude_numeral hdigits
  have hholds := Number.shortest_holds tie h
  rw [← hmagnitude] at hholds
  exact hholds

/-- A canonical numeral lies in the rounding interval of its double. -/
theorem holds_canonicalDouble {d : Number.Double} (h : 0 < d.ordinal) :
    (Number.RoundingInterval.around d.ordinal).Holds
      ((canonicalDouble d).coefficient * 10 ^ (canonicalDouble d).scale * Number.halfUnits) := by
  rw [canonicalDouble_of_pos h]
  exact holds_numeral _ _ h

theorem negative_canonicalDouble {d : Number.Double} (h : 0 < d.ordinal) :
    (canonicalDouble d).negative = d.negative := by
  rw [canonicalDouble_of_pos h]
  exact Number.Layout.negative_numeral _ _ _

/-- **The canonical numeral of a double reads back as it**, though not always as a double. -/
theorem number?_canonicalDouble (d : Number.Double) :
    ∃ m, Tree.number? (canonicalDouble d) = some m ∧ m.inDoubles = .double d.plainZero := by
  rcases eq_zero_or_pos d with hzero | hpos
  · rw [canonicalDouble_of_isZero hzero, plainZero_of_isZero hzero]
    exact ⟨.int 0, rfl, rfl⟩
  · have hnegative := negative_canonicalDouble hpos
    have hholds := holds_canonicalDouble hpos
    have hcoefficient := Number.coefficient_pos hpos hholds
    generalize canonicalDouble d = n at hnegative hholds hcoefficient
    have hread := Number.ofDecimal?_eq d.negative hpos d.ordinal_lt hholds
    unfold Tree.number?
    dsimp only
    generalize hvalue : (if n.negative = true then -(n.coefficient : Int) else n.coefficient) = value
    split
    · -- The numeral is whole: the reader makes an integer of it, which denotes the same double.
      rename_i hint
      simp only [Bool.and_eq_true] at hint
      have hsign : decide (value < 0) = d.negative := by
        rw [← hvalue, hnegative]
        cases d.negative with
        | true => simpa using hcoefficient
        | false => simp
      have habs : value.natAbs = n.coefficient := by
        rw [← hvalue]
        split <;> omega
      have hdouble : Number.Double.ofInt? value = some d := by
        rw [Number.Numeral.scale_of_isWhole hint.1.1] at hread
        rw [Number.Double.ofInt?, hsign, habs, hread]
      exact ⟨.int value, rfl, by simp only [Number.inDoubles, hdouble]⟩
    · rw [hnegative, hread]
      exact ⟨.double d, rfl, rfl⟩

end Json

end AuditTrail
