import AuditTrail.Proofs.Number.Decimals

/-!
# The nearest double

An ordinal is nearest to a magnitude if no other ordinal is nearer, and if it is even where another one is
as near (`Nearest`). All ordinals take part in the comparison, those beyond the finite range too: a
magnitude is out of range if one of these is nearest to it. There is just one nearest ordinal
(`Nearest.unique`), and the division finds it (`nearest_nearestOrdinal`), so

> a decimal reads as the double of its sign whose ordinal is nearest to it, and as nothing if that
> ordinal is beyond the finite range (`ofDecimal?_eq_some`).

A decimal in the rounding interval of a nonzero double reads as that double (`ofDecimal?_eq`), because its
ordinal is nearest to what is inside (`nearest_of_holds`).
-/

namespace AuditTrail.Number

/-- The magnitude at an ordinal is nearest to `x` units, and of two that are equally near it is the one
with the even ordinal. -/
structure Nearest (ordinal : Nat) (x : ℚ) : Prop where
  le : ∀ other, |(unitsAt ordinal : ℚ) - x| ≤ |(unitsAt other : ℚ) - x|
  even : ∀ other, other ≠ ordinal → |(unitsAt other : ℚ) - x| = |(unitsAt ordinal : ℚ) - x| → ordinal % 2 = 0

section

variable {ordinal other below : Nat} {x : ℚ}

theorem units_lt (h : ordinal < other) : (unitsAt ordinal : ℚ) < unitsAt other := by
  exact_mod_cast unitsAt_strictMono h

theorem units_le (h : ordinal ≤ other) : (unitsAt ordinal : ℚ) ≤ unitsAt other := by
  exact_mod_cast unitsAt_strictMono.monotone h

/-- Of two nearest ordinals the one would be as near as the other. An ordinal between them would be nearer,
and two neighbours are not both even. -/
theorem not_nearest_of_lt (h : Nearest ordinal x) (h' : Nearest other x) : ¬ ordinal < other := by
  intro hlt
  have hsame : |(unitsAt other : ℚ) - x| = |(unitsAt ordinal : ℚ) - x| := le_antisymm (h'.le _) (h.le _)
  have hunits := units_lt hlt
  -- The magnitude is halfway between the two.
  have hmid : 2 * x = unitsAt ordinal + unitsAt other := by
    rcases abs_eq_abs.mp hsame with heq | heq <;> linarith
  have heven := h.even other hlt.ne' hsame
  have heven' := h'.even ordinal hlt.ne hsame.symm
  have hbetween := h.le (ordinal + 1)
  have hlow := units_lt (Nat.lt_succ_self ordinal)
  have hhigh := units_lt (show ordinal + 1 < other by omega)
  rw [abs_of_neg (by linarith : (unitsAt ordinal : ℚ) - x < 0), le_abs] at hbetween
  rcases hbetween with hbetween | hbetween <;> linarith

/-- **There is just one nearest ordinal.** -/
theorem Nearest.unique (h : Nearest ordinal x) (h' : Nearest other x) : ordinal = other :=
  le_antisymm (not_lt.mp (not_nearest_of_lt h' h)) (not_lt.mp (not_nearest_of_lt h h'))

/-- A magnitude that is not above the midpoint above its floor is nearest to the floor. -/
theorem nearest_of_down (hfloor : (unitsAt below : ℚ) ≤ x) (hdown : 2 * x ≤ midpointAbove below)
    (heven : 2 * x = midpointAbove below → below % 2 = 0) : Nearest below x := by
  rw [midpointAbove] at hdown heven
  push_cast at hdown heven
  constructor
  case le =>
    intro other
    rw [abs_of_nonpos (by linarith : (unitsAt below : ℚ) - x ≤ 0), le_abs]
    rcases Nat.lt_or_ge below other with h | h
    · have := units_le (Nat.succ_le_of_lt h)
      left
      linarith
    · have := units_le h
      right
      linarith
  case even =>
    intro other hne hsame
    rw [abs_of_nonpos (by linarith : (unitsAt below : ℚ) - x ≤ 0)] at hsame
    rcases Nat.lt_or_gt_of_ne hne with h | h
    · have := units_lt h
      rw [abs_of_nonpos (by linarith)] at hsame
      linarith
    · have := units_le (Nat.succ_le_of_lt h)
      rw [abs_of_nonneg (by linarith)] at hsame
      exact heven (by linarith)

/-- A magnitude that is not below the midpoint above its floor is nearest to the ordinal after the floor. -/
theorem nearest_of_up (hceil : x < unitsAt (below + 1)) (hup : midpointAbove below ≤ 2 * x)
    (heven : 2 * x = midpointAbove below → (below + 1) % 2 = 0) : Nearest (below + 1) x := by
  rw [midpointAbove] at hup heven
  push_cast at hup heven
  constructor
  case le =>
    intro other
    rw [abs_of_pos (by linarith : 0 < (unitsAt (below + 1) : ℚ) - x), le_abs]
    rcases Nat.lt_or_ge below other with h | h
    · have := units_le (Nat.succ_le_of_lt h)
      left
      linarith
    · have := units_le h
      right
      linarith
  case even =>
    intro other hne hsame
    rw [abs_of_pos (by linarith : 0 < (unitsAt (below + 1) : ℚ) - x)] at hsame
    rcases Nat.lt_or_gt_of_ne hne with h | h
    · have := units_le (Nat.le_of_lt_succ h)
      rw [abs_of_nonpos (by linarith)] at hsame
      exact heven (by linarith)
    · have := units_lt h
      rw [abs_of_pos (by linarith)] at hsame
      linarith

/-- A magnitude in the rounding interval of an ordinal is nearest to it. -/
theorem nearest_of_holds (hpos : 0 < ordinal) (h : (RoundingInterval.around ordinal).Holds (2 * x)) :
    Nearest ordinal x := by
  obtain ⟨below, rfl⟩ : ∃ below, ordinal = below + 1 := ⟨ordinal - 1, by omega⟩
  have hlow : ((RoundingInterval.around (below + 1)).low : ℚ) = midpointAbove below := by
    rw [RoundingInterval.around_low hpos, Nat.add_sub_cancel]
  have hhigh : ((RoundingInterval.around (below + 1)).high : ℚ) = midpointAbove (below + 1) := by
    rw [RoundingInterval.around_high]
  have hends : (below + 1) % 2 ≠ 0 → (midpointAbove below : ℚ) ≠ 2 * x ∧ 2 * x ≠ midpointAbove (below + 1) := by
    intro hodd
    rw [← hlow, ← hhigh]
    exact h.2 (beq_eq_false_iff_ne.mpr hodd)
  rcases lt_or_ge x (unitsAt (below + 1)) with hbelow | habove
  · refine nearest_of_up hbelow (hlow ▸ h.low_le) fun hmid => ?_
    by_contra hodd
    exact (hends hodd).1 hmid.symm
  · refine nearest_of_down habove (hhigh ▸ h.le_high) fun hmid => ?_
    by_contra hodd
    exact (hends hodd).2 hmid

end

/-- **The division finds the nearest ordinal.** -/
theorem nearest_nearestOrdinal (num : Nat) {den : Nat} (hden : 0 < den) :
    Nearest (nearestOrdinal num den) (num / den) := by
  obtain ⟨below, hfloor, hceil, heq⟩ := nearestOrdinal_floor num hden
  have hpos : (0 : ℚ) < den := by exact_mod_cast hden
  have hlow : (unitsAt below : ℚ) ≤ num / den := by
    rw [le_div_iff₀ hpos]
    exact_mod_cast hfloor
  have hhigh : (num / den : ℚ) < unitsAt (below + 1) := by
    rw [div_lt_iff₀ hpos]
    exact_mod_cast hceil
  have hmid : (midpointAbove below : ℚ) ≤ 2 * (num / den) ↔ midpointAbove below * den ≤ 2 * num := by
    rw [← mul_div_assoc, le_div_iff₀ hpos]
    norm_cast
  have htie : 2 * (num / den : ℚ) = midpointAbove below ↔ 2 * num = midpointAbove below * den := by
    rw [← mul_div_assoc, div_eq_iff hpos.ne']
    norm_cast
  rw [heq]
  split
  · rename_i hup
    refine nearest_of_up hhigh (hmid.mpr (by omega)) ?_
    intro h
    rw [htie] at h
    omega
  · rename_i hdown
    refine nearest_of_down hlow ?_ ?_
    · by_contra hlt
      have := hmid.mp (not_le.mp hlt).le
      have := mt htie.mpr (not_le.mp hlt).ne'
      omega
    · intro h
      rw [htie] at h
      omega

/-! ## Decimals -/

section

variable {negative : Bool} {coefficient ordinal : Nat} {scale : Int} {d : Double}

theorem nearest_decimal (coefficient : Nat) (scale : Int) :
    ∃ ordinal, Nearest ordinal (coefficient * 10 ^ scale * unitsInOne)
      ∧ nearestOrdinal (coefficient * Nat.pow 10 scale.toNat * unitsInOne) (Nat.pow 10 (-scale).toNat)
        = ordinal := by
  have hquot : ((coefficient * Nat.pow 10 scale.toNat * unitsInOne : ℕ) : ℚ) / ((Nat.pow 10 (-scale).toNat : ℕ) : ℚ)
      = coefficient * 10 ^ scale * unitsInOne := by
    rw [ten_zpow_eq_div, Nat.pow_eq, Nat.pow_eq]
    push_cast
    ring
  rw [← hquot]
  exact ⟨_, nearest_nearestOrdinal _ (Nat.pow_pos (by decide)), rfl⟩

/-- A number with this many places is beyond the finite range, and so is the ordinal nearest to it. -/
theorem Nearest.ordinalBound_le (h : Nearest ordinal (coefficient * 10 ^ scale * unitsInOne))
    (hpos : 0 < coefficient) (hplaces : 310 < (digitsOf coefficient).length + scale) :
    Double.ordinalBound ≤ ordinal := by
  have hnat : unitsAt Double.ordinalBound ≤ 10 ^ 310 * unitsInOne := by decide +kernel
  have hbound : (unitsAt Double.ordinalBound : ℚ) ≤ 10 ^ 310 * unitsInOne := by exact_mod_cast hnat
  have hpow : (10 : ℚ) ^ 310 ≤ coefficient * 10 ^ scale := by
    refine le_trans ?_ (ten_zpow_le hpos scale)
    rw [← zpow_natCast]
    exact zpow_le_zpow_right₀ (by norm_num) (by push_cast; omega)
  have hunits := hbound.trans (mul_le_mul_of_nonneg_right hpow (Nat.cast_nonneg unitsInOne))
  by_contra hlt
  -- A finite ordinal is below the bound, and the bound is nearer.
  have hfinite := units_lt (not_le.mp hlt)
  have hle := h.le Double.ordinalBound
  rw [abs_of_nonpos (by linarith), abs_of_nonpos (by linarith)] at hle
  linarith

/-- Below half a unit there is only zero. -/
theorem nearest_zero {x : ℚ} (hnonneg : 0 ≤ x) (hx : 2 * x ≤ 1) : Nearest 0 x := by
  refine nearest_of_down ?_ ?_ fun _ => rfl
  · rw [unitsAt_zero]
    exact_mod_cast hnonneg
  · rw [show midpointAbove 0 = 1 from rfl]
    exact_mod_cast hx

theorem decimal_nonneg (coefficient : Nat) (scale : Int) : (0 : ℚ) ≤ coefficient * 10 ^ scale * unitsInOne :=
  mul_nonneg (mul_nonneg (Nat.cast_nonneg _) (ten_zpow_pos scale).le) (Nat.cast_nonneg _)

/-- A number with this few places is less than half a unit. -/
theorem nearest_zero_of_places (h : (digitsOf coefficient).length + scale < -330) :
    Nearest 0 (coefficient * 10 ^ scale * unitsInOne) := by
  refine nearest_zero (decimal_nonneg _ _) ?_
  have hnat : 2 * unitsInOne ≤ 10 ^ 331 := by decide +kernel
  have hone : (10 : ℚ) ^ (-331 : Int) * halfUnits ≤ 1 := by
    rw [zpow_neg, inv_mul_le_iff₀ (zpow_pos (by norm_num) _), mul_one, halfUnits]
    exact_mod_cast hnat
  have hpow : (coefficient : ℚ) * 10 ^ scale ≤ 10 ^ (-331 : Int) :=
    (lt_ten_zpow coefficient scale).le.trans (zpow_le_zpow_right₀ (by norm_num) (by omega))
  calc (2 : ℚ) * (coefficient * 10 ^ scale * unitsInOne)
      = coefficient * 10 ^ scale * halfUnits := by rw [halfUnits]; ring
    _ ≤ 10 ^ (-331 : Int) * halfUnits := mul_le_mul_of_nonneg_right hpow halfUnits_pos.le
    _ ≤ 1 := hone

/-- What the reader does with the ordinal it finds. The two tests on the places only keep it from computing
large powers of ten. -/
theorem ofDecimal?_eq_ofOrdinal? (negative : Bool) (coefficient : Nat) (scale : Int) :
    ∃ ordinal, Nearest ordinal (coefficient * 10 ^ scale * unitsInOne)
      ∧ Double.ofDecimal? negative coefficient scale = Double.ofOrdinal? negative ordinal := by
  have hzero : some (Double.zero negative) = Double.ofOrdinal? negative 0 := rfl
  obtain ⟨ordinal, hnearest, hfound⟩ := nearest_decimal coefficient scale
  unfold unitsInOne at hfound
  unfold Double.ofDecimal?
  split
  · rename_i hcoefficient
    refine ⟨0, nearest_zero (decimal_nonneg _ _) ?_, hzero⟩
    rw [hcoefficient, Nat.cast_zero, zero_mul, zero_mul, mul_zero]
    exact zero_le_one
  · rename_i hcoefficient
    dsimp only
    split
    · rename_i hplaces
      have hbound := hnearest.ordinalBound_le (Nat.pos_of_ne_zero hcoefficient) hplaces
      refine ⟨ordinal, hnearest, ?_⟩
      rw [Double.ofOrdinal?, dif_neg (not_lt.mpr hbound)]
    · split
      · rename_i hplaces
        exact ⟨0, nearest_zero_of_places hplaces, hzero⟩
      · exact ⟨ordinal, hnearest, by rw [hfound]⟩

/-- **A decimal reads as the double nearest to it.** -/
theorem ofDecimal?_eq_some : Double.ofDecimal? negative coefficient scale = some d
    ↔ d.negative = negative ∧ Nearest d.ordinal (coefficient * 10 ^ scale * unitsInOne) := by
  obtain ⟨ordinal, hnearest, heq⟩ := ofDecimal?_eq_ofOrdinal? negative coefficient scale
  rw [heq, Double.ofOrdinal?]
  constructor
  · intro h
    split at h
    · rw [← Option.some.inj h]
      exact ⟨rfl, hnearest⟩
    · exact absurd h (by simp)
  · rintro ⟨rfl, h⟩
    obtain rfl := hnearest.unique h
    exact dif_pos d.ordinal_lt

/-- A decimal in the rounding interval of a nonzero double reads as that double. -/
theorem ofDecimal?_eq (negative : Bool) (hpos : 0 < ordinal) (hlt : ordinal < Double.ordinalBound)
    (h : (RoundingInterval.around ordinal).Holds (coefficient * 10 ^ scale * halfUnits)) :
    Double.ofDecimal? negative coefficient scale = some ⟨negative, ordinal, hlt⟩ := by
  rw [ofDecimal?_eq_some]
  have hdouble : (2 : ℚ) * (coefficient * 10 ^ scale * unitsInOne) = coefficient * 10 ^ scale * halfUnits := by
    rw [halfUnits]
    ring
  exact ⟨rfl, nearest_of_holds hpos (hdouble ▸ h)⟩

end

end AuditTrail.Number
