import AuditTrail.Proofs.Number.Digits
import Mathlib.Algebra.Order.Field.Rat
import Mathlib.Order.Monotone.Basic
import Mathlib.Tactic.FieldSimp
import Mathlib.Tactic.Positivity

/-!
# Rounding a quotient

`nearestOrdinal` is written for speed: a shift found by a logarithm, one division, one comparison
of remainders. What it does is said here once, and nothing below looks at the shift again:

> the ordinal that the division finds is the floor, and the one after it is taken if the quotient is
> above the midpoint of the two (`nearestOrdinal_floor`).

The magnitudes are strictly increasing (`unitsAt_strictMono`), so that everything after this is
comparing neighbours.
-/

namespace AuditTrail.Number

/-! ## Magnitudes -/

/-- Where a power of two is shared, the magnitude is a multiple of it. The upper end `2 * mantissas`
is allowed: it is the first magnitude of the next power. -/
theorem unitsAt_shift {shift k : Nat} (hlow : mantissas ≤ k ∨ shift = 0)
    (hhigh : k ≤ 2 * mantissas) : unitsAt (shift * mantissas + k) = k * 2 ^ shift := by
  unfold unitsAt
  split
  · rename_i hsmall
    simp only [mantissas] at hsmall hlow
    have hshift : shift = 0 := by omega
    simp [hshift]
  · rename_i hlarge
    simp only [mantissas, Nat.pow_eq] at hlarge hlow hhigh ⊢
    rcases Nat.lt_or_ge k (2 * 4503599627370496) with hk | hk
    · have hquot : (shift * 4503599627370496 + k) / 4503599627370496 - 1 = shift := by omega
      have hrest : 4503599627370496 + (shift * 4503599627370496 + k) % 4503599627370496 = k := by
        omega
      rw [hquot, hrest]
    · have hquot : (shift * 4503599627370496 + k) / 4503599627370496 - 1 = shift + 1 := by omega
      have hrest : (shift * 4503599627370496 + k) % 4503599627370496 = 0 := by omega
      have htop : k = 4503599627370496 * 2 := by omega
      -- The end of the range is the first significand of the next shift.
      rw [hquot, hrest, htop, pow_succ]
      ring

/-- Every ordinal is a shift and a significand. -/
theorem exists_shift (ordinal : Nat) :
    ∃ shift k, ordinal = shift * mantissas + k ∧ (mantissas ≤ k ∨ shift = 0)
      ∧ k < 2 * mantissas := by
  simp only [mantissas]
  rcases Nat.lt_or_ge ordinal (2 * 4503599627370496) with h | h
  · exact ⟨0, ordinal, by omega, Or.inr rfl, h⟩
  · exact ⟨ordinal / 4503599627370496 - 1, 4503599627370496 + ordinal % 4503599627370496,
      by omega, Or.inl (by omega), by omega⟩

theorem unitsAt_lt_succ (ordinal : Nat) : unitsAt ordinal < unitsAt (ordinal + 1) := by
  obtain ⟨shift, k, rfl, hlow, hhigh⟩ := exists_shift ordinal
  rw [Nat.add_assoc, unitsAt_shift hlow hhigh.le, unitsAt_shift (by omega) hhigh]
  exact Nat.mul_lt_mul_of_pos_right (Nat.lt_succ_self k) (Nat.pow_pos (by decide))

theorem unitsAt_strictMono : StrictMono unitsAt := strictMono_nat_of_lt_succ unitsAt_lt_succ

@[simp] theorem unitsAt_zero : unitsAt 0 = 0 := rfl

theorem unitsAt_pos {ordinal : Nat} (h : 0 < ordinal) : 0 < unitsAt ordinal :=
  unitsAt_zero ▸ unitsAt_strictMono h

/-- The magnitude just beyond the finite range. -/
theorem unitsAt_ordinalBound : unitsAt Double.ordinalBound = 2 ^ 2098 := by decide +kernel

/-! ## The nearest ordinal -/

/-- The midpoint above an ordinal, in halves of a unit. -/
def midpointAbove (ordinal : Nat) : Nat := unitsAt ordinal + unitsAt (ordinal + 1)

theorem div_shift_bounds (q : Nat) :
    (mantissas ≤ q / 2 ^ (q.log2 - 52) ∨ q.log2 - 52 = 0) ∧ q / 2 ^ (q.log2 - 52) < 2 * mantissas := by
  have htwo : 2 * mantissas = 2 ^ 53 := by decide
  have hone : mantissas = 2 ^ 52 := by decide
  have hlt : q < 2 ^ (q.log2 + 1) := Nat.lt_log2_self
  rcases Nat.lt_or_ge q.log2 53 with hsmall | hlarge
  · have hshift : q.log2 - 52 = 0 := by omega
    refine ⟨Or.inr hshift, ?_⟩
    rw [hshift, pow_zero, Nat.div_one, htwo]
    exact lt_of_lt_of_le hlt (Nat.pow_le_pow_right (by decide) (by omega))
  · have hq : q ≠ 0 := by rintro rfl; simp at hlarge
    constructor
    · left
      rw [Nat.le_div_iff_mul_le (Nat.pow_pos (by decide)), hone, ← pow_add]
      exact le_trans (Nat.pow_le_pow_right (by decide) (by omega)) (Nat.log2_self_le hq)
    · rw [Nat.div_lt_iff_lt_mul (Nat.pow_pos (by decide)), htwo, ← pow_add]
      exact lt_of_lt_of_le hlt (Nat.pow_le_pow_right (by decide) (by omega))

/-- The ordinal that the division finds is the floor, and the comparison of the remainder with half
a step is the comparison with the midpoint above it. -/
theorem nearestOrdinal_floor (num : Nat) {den : Nat} (hden : 0 < den) :
    ∃ below, unitsAt below * den ≤ num ∧ num < unitsAt (below + 1) * den ∧
      nearestOrdinal num den =
        if midpointAbove below * den < 2 * num
            ∨ (2 * num = midpointAbove below * den ∧ below % 2 = 1)
        then below + 1 else below := by
  obtain ⟨hlow, hhigh⟩ := div_shift_bounds (num / den)
  -- Everything is compared in multiples of one step, the denominator times `2 ^ shift`.
  set shift := (num / den).log2 - 52 with hshift
  set step := den * 2 ^ shift with hstep
  have hpos : 0 < step := Nat.mul_pos hden (Nat.pow_pos (by decide))
  rw [Nat.div_div_eq_div_mul, ← hstep] at hlow hhigh
  set k := num / step with hk
  have hat : unitsAt (shift * mantissas + k) * den = k * step := by
    rw [unitsAt_shift hlow hhigh.le, hstep]
    ring
  have habove : unitsAt (shift * mantissas + k + 1) * den = (k + 1) * step := by
    rw [Nat.add_assoc, unitsAt_shift (by omega) hhigh, hstep, Nat.succ_eq_add_one]
    ring
  have hdiv : k * step + num % step = num := by rw [hk, Nat.mul_comm]; exact Nat.div_add_mod num step
  have hrest : num % step < step := Nat.mod_lt _ hpos
  have hsucc : (k + 1) * step = k * step + step := Nat.succ_mul k step
  have hmid : midpointAbove (shift * mantissas + k) * den = 2 * (k * step) + step := by
    rw [midpointAbove, Nat.add_mul, hat, habove, hsucc]
    ring
  refine ⟨shift * mantissas + k, by omega, by omega, ?_⟩
  -- Twice the remainder against the step is twice the quotient against the midpoint.
  have hup : (midpointAbove (shift * mantissas + k) * den < 2 * num
        ∨ (2 * num = midpointAbove (shift * mantissas + k) * den
          ∧ (shift * mantissas + k) % 2 = 1))
      ↔ (step < 2 * (num % step)
        ∨ (2 * (num % step) = step ∧ (shift * mantissas + k) % 2 = 1)) := by
    rw [hmid]
    constructor <;> rintro (h | ⟨h, hodd⟩) <;> first | (left; omega) | exact Or.inr ⟨by omega, hodd⟩
  rw [if_congr hup rfl rfl]
  rfl

theorem nearestOrdinal_le {ordinal num den : Nat} (hden : 0 < den)
    (h : num < unitsAt ordinal * den) : nearestOrdinal num den ≤ ordinal := by
  obtain ⟨below, hfloor, _, heq⟩ := nearestOrdinal_floor num hden
  have hunits : unitsAt below < unitsAt ordinal :=
    Nat.lt_of_mul_lt_mul_right (lt_of_le_of_lt hfloor h)
  have hbelow : below < ordinal := unitsAt_strictMono.lt_iff_lt.mp hunits
  rw [heq]
  split <;> omega

/-! ## Rounding intervals -/

namespace RoundingInterval

/-- Whether a magnitude, in halves of a unit, lies in the interval. -/
def Holds (r : RoundingInterval) (x : ℚ) : Prop :=
  (r.low ≤ x ∧ x ≤ r.high) ∧ (r.closed = false → (r.low : ℚ) ≠ x ∧ x ≠ r.high)

theorem Holds.low_le {r : RoundingInterval} {x : ℚ} (h : r.Holds x) : (r.low : ℚ) ≤ x := h.1.1

theorem Holds.le_high {r : RoundingInterval} {x : ℚ} (h : r.Holds x) : x ≤ r.high := h.1.2

theorem holds_iff_contains (r : RoundingInterval) {scale : Nat} (hscale : 0 < scale) (point : Nat) :
    r.contains scale point = true ↔ r.Holds (point / scale : ℚ) := by
  have hpos : (0 : ℚ) < scale := by exact_mod_cast hscale
  have hlow : ((r.low : ℚ) ≤ point / scale) ↔ r.low * scale ≤ point := by
    rw [le_div_iff₀ hpos]; norm_cast
  have hhigh : ((point : ℚ) / scale ≤ r.high) ↔ point ≤ r.high * scale := by
    rw [div_le_iff₀ hpos]; norm_cast
  have hlow' : ((r.low : ℚ) = point / scale) ↔ r.low * scale = point := by
    rw [eq_div_iff hpos.ne']; norm_cast
  have hhigh' : ((point : ℚ) / scale = r.high) ↔ point = r.high * scale := by
    rw [div_eq_iff hpos.ne']; norm_cast
  rw [Holds, contains, hlow, hhigh, ne_eq, ne_eq, hlow', hhigh']
  cases r.closed with
  | true => simp
  | false => simp; omega

theorem around_low {ordinal : Nat} (h : 0 < ordinal) :
    (around ordinal).low = midpointAbove (ordinal - 1) := by
  rw [around, midpointAbove, Nat.sub_add_cancel h]

theorem around_high (ordinal : Nat) : (around ordinal).high = midpointAbove ordinal := rfl

end RoundingInterval

end AuditTrail.Number
