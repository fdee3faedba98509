import AuditTrail.Proofs.Number.Rounding
import Mathlib.Algebra.Order.Field.Power
import Mathlib.Tactic.NormNum

/-!
# Decimals

The number a decimal fraction denotes is `coefficient · 10 ^ scale`. One number has many such pairs
(a layout moves the point and adds zeros), so the facts below speak of the number as a rational and
never of the pair. How large the number is can be told from its places (`lt_ten_zpow`, `ten_zpow_le`).
-/

namespace AuditTrail.Number

/-- How many units make one: a unit is `2 ^ -1074`. -/
def unitsInOne : Nat := Nat.pow 2 1074

/-- The exponent as a variable, so that no step of a proof multiplies the power out. -/
theorem exists_unitsInOne : ∃ k, k = 1074 ∧ unitsInOne = 2 ^ k := by
  unfold unitsInOne
  generalize 1074 = k
  exact ⟨k, rfl, Nat.pow_eq⟩

theorem two_pow_mul_unitsInOne {n m : Nat} (h : m = n + 1074) : 2 ^ n * unitsInOne = 2 ^ m := by
  obtain ⟨k, rfl, hunits⟩ := exists_unitsInOne
  rw [hunits, h, Nat.pow_add]

theorem unitsInOne_pos : 0 < unitsInOne := by
  obtain ⟨k, _, hunits⟩ := exists_unitsInOne
  rw [hunits]
  exact Nat.two_pow_pos k

/-- How many halves of a unit make one. -/
def halfUnits : ℚ := 2 * unitsInOne

theorem halfUnits_pos : 0 < halfUnits :=
  mul_pos (by norm_num) (by exact_mod_cast unitsInOne_pos)

theorem ten_zpow_eq_div (scale : Int) :
    (10 : ℚ) ^ scale = 10 ^ scale.toNat / 10 ^ (-scale).toNat := by
  obtain ⟨n, rfl | rfl⟩ := scale.eq_nat_or_neg
  · simp
  · simp [zpow_neg]

theorem ten_zpow_pos (scale : Int) : 0 < (10 : ℚ) ^ scale := zpow_pos (by norm_num) _

/-! ## How large a decimal is -/

theorem lt_ten_zpow (coefficient : Nat) (scale : Int) :
    (coefficient : ℚ) * 10 ^ scale < 10 ^ ((digitsOf coefficient).length + scale : Int) := by
  have hlt : (coefficient : ℚ) < 10 ^ (digitsOf coefficient).length := by
    exact_mod_cast lt_pow_length_digitsOf coefficient
  rw [zpow_add₀ (by norm_num), zpow_natCast]
  exact mul_lt_mul_of_pos_right hlt (ten_zpow_pos scale)

theorem ten_zpow_le {coefficient : Nat} (h : 0 < coefficient) (scale : Int) :
    (10 : ℚ) ^ ((digitsOf coefficient).length - 1 + scale : Int) ≤ coefficient * 10 ^ scale := by
  have hle : (10 : ℚ) ^ ((digitsOf coefficient).length - 1) ≤ coefficient := by
    exact_mod_cast pow_length_digitsOf_le h
  have hcast : ((digitsOf coefficient).length - 1 : Int)
      = ((digitsOf coefficient).length - 1 : ℕ) := by
    have := length_digitsOf_pos coefficient
    omega
  rw [zpow_add₀ (by norm_num), hcast, zpow_natCast]
  exact mul_le_mul_of_nonneg_right hle (ten_zpow_pos scale).le

/-! ## Intervals and integers -/

theorem one_le_low {ordinal : Nat} (h : 0 < ordinal) :
    1 ≤ (RoundingInterval.around ordinal).low := by
  have := unitsAt_pos h
  simp only [RoundingInterval.around]
  omega

theorem coefficient_pos {ordinal coefficient : Nat} {scale : Int} (hpos : 0 < ordinal)
    (h : (RoundingInterval.around ordinal).Holds (coefficient * 10 ^ scale * halfUnits)) :
    0 < coefficient := by
  rcases Nat.eq_zero_or_pos coefficient with rfl | hc
  · have hlow : (1 : ℚ) ≤ (RoundingInterval.around ordinal).low := by
      exact_mod_cast one_le_low hpos
    have := le_trans hlow h.low_le
    norm_num at this
  · exact hc

/-- Every integer of 64 bits has a double nearest to it. -/
theorem ofInt?_isSome {i : Int} (h : i.natAbs ≤ 2 ^ 64) : ∃ d, Double.ofInt? i = some d := by
  unfold Double.ofInt? Double.ofDecimal?
  split
  · exact ⟨_, rfl⟩
  · have hlength : (digitsOf i.natAbs).length ≤ 20 :=
      length_digitsOf_le (lt_of_le_of_lt h (by decide))
    have hnearest : nearestOrdinal (i.natAbs * Nat.pow 10 (0 : Int).toNat * unitsInOne)
        (Nat.pow 10 (-(0 : Int)).toNat) ≤ Double.ordinalBound - 1 := by
      refine nearestOrdinal_le (Nat.pow_pos (by decide)) ?_
      have hlarge : 2 ^ 64 * unitsInOne < unitsAt (Double.ordinalBound - 1) := by decide +kernel
      have hle := Nat.mul_le_mul_right unitsInOne h
      simpa using lt_of_le_of_lt hle hlarge
    have hbound : Double.ordinalBound - 1 < Double.ordinalBound := by decide
    unfold unitsInOne at hnearest
    dsimp only
    rw [if_neg (by omega), if_neg (by omega)]
    exact ⟨_, dif_pos (lt_of_le_of_lt hnearest hbound)⟩

end AuditTrail.Number
