import AuditTrail.Proofs.Number.Decimals

/-!
# The fewest digits read back

`shortest` searches decimal grids from coarse to fine. Whatever grid it stops at, the point it takes
lies in the rounding interval, and where no grid has one the exact expansion does, so

> the digits of a nonzero double read back as that double (`shortest_holds`).

The second half is about integers. Up to `2 ^ 53` the spacing of the doubles is at most one, so the
interval around an integer holds no other integer, and the digits that the search finds are the
integer's own (`shortest_of_integer`). The upper end `2 ^ 53` itself is the one exception: the
interval reaches to the next integer there, and the search is evaluated.
-/

namespace AuditTrail.Number

/-! ## Numbers in scientific form -/

/-- The number that digits and an exponent stand for. -/
def Scientific.magnitude (s : Scientific) : ℚ :=
  valueOf s.digits * 10 ^ (s.exponent + 1 - s.digits.length)

theorem Scientific.magnitude_ofDecimal (n : Nat) (power : Int) :
    (Scientific.ofDecimal n power).magnitude = n * 10 ^ power := by
  have hle := length_significantDigits_le n
  have hexp : power + (digitsOf n).length - 1 + 1 - (significantDigits n).length
      = (((digitsOf n).length - (significantDigits n).length : ℕ) : Int) + power := by
    omega
  have hval := congrArg (fun m : ℕ => (m : ℚ)) (valueOf_significantDigits n)
  push_cast at hval
  rw [Scientific.magnitude, Scientific.ofDecimal, hexp, zpow_add₀ (by norm_num), zpow_natCast,
    ← mul_assoc, hval]

theorem digitsOf_mul_pow {n : Nat} (h : 0 < n) (zeros : Nat) :
    digitsOf (n * 10 ^ zeros) = digitsOf n ++ List.replicate zeros Digit.zero := by
  obtain ⟨d, rest, heq, hd⟩ := digitsOf_front h
  have hval : valueOf (digitsOf n ++ List.replicate zeros Digit.zero) = n * 10 ^ zeros := by
    simp [valueOf_append]
  rw [← hval]
  exact digitsOf_valueOf (Or.inr ⟨d, rest ++ List.replicate zeros Digit.zero, by simp [heq], hd⟩)

theorem significantDigits_mul_pow {n : Nat} (h : 0 < n) (zeros : Nat) :
    significantDigits (n * 10 ^ zeros) = significantDigits n := by
  rw [significantDigits, digitsOf_mul_pow h, List.reverse_append, List.reverse_replicate,
    List.dropWhile_append_of_pos (by simp), significantDigits]

/-- Zeros at the end of the integer do not change its scientific form. -/
theorem Scientific.ofDecimal_mul_pow {n : Nat} (h : 0 < n) (zeros : Nat) :
    Scientific.ofDecimal (n * 10 ^ zeros) 0 = Scientific.ofDecimal n zeros := by
  rw [Scientific.ofDecimal, Scientific.ofDecimal, significantDigits_mul_pow h,
    digitsOf_mul_pow h]
  simp
  omega

/-! ## Points of the grids -/

theorem two_mul_unitsInOne : Nat.pow 2 1075 = 2 * unitsInOne := by
  obtain ⟨k, hk, hunits⟩ := exists_unitsInOne
  rw [show 1075 = k + 1 by omega, hunits, Nat.pow_eq, pow_succ']

namespace RoundingInterval

theorem contains_of_gridPoint? {r : RoundingInterval} {tie : Tie} {power : Int} {n : Nat}
    (h : r.gridPoint? tie power = some n) :
    r.contains (Nat.pow 10 (-power).toNat) (n * (Nat.pow 10 power.toNat * (2 * unitsInOne)))
      = true := by
  unfold gridPoint? at h
  rw [two_mul_unitsInOne] at h
  dsimp only at h
  generalize Nat.pow 10 power.toNat * (2 * unitsInOne) = grid at h ⊢
  split at h
  · rename_i hbelow habove
    rw [Option.some.injEq] at h
    subst h
    -- Whichever of the two neighbours is taken, it was found to be inside.
    split_ifs
    · exact habove
    · exact hbelow
  · rename_i hbelow habove
    rw [Option.some.injEq] at h
    subst h
    exact hbelow
  · rename_i hbelow habove
    rw [Option.some.injEq] at h
    subst h
    exact habove
  · exact absurd h (by simp)

theorem holds_of_gridPoint? {r : RoundingInterval} {tie : Tie} {power : Int} {n : Nat}
    (h : r.gridPoint? tie power = some n) : r.Holds (n * 10 ^ power * halfUnits) := by
  have hpos : 0 < Nat.pow 10 (-power).toNat := Nat.pow_pos (by decide)
  have hholds := (r.holds_iff_contains hpos _).mp (contains_of_gridPoint? h)
  have hquot : ((n * (Nat.pow 10 power.toNat * (2 * unitsInOne)) : ℕ) : ℚ)
      / ((Nat.pow 10 (-power).toNat : ℕ) : ℚ) = n * 10 ^ power * halfUnits := by
    rw [ten_zpow_eq_div, halfUnits, Nat.pow_eq, Nat.pow_eq]
    push_cast
    ring
  rwa [hquot] at hholds

theorem gridPoint?_of_firstPoint? {r : RoundingInterval} {tie : Tie} {s : Scientific} :
    ∀ {grids : Nat} {power : Int}, r.firstPoint? tie grids power = some s →
      ∃ n p, r.gridPoint? tie p = some n ∧ s = Scientific.ofDecimal n p
  | 0, _, h => by simp [firstPoint?] at h
  | grids + 1, power, h => by
    unfold firstPoint? at h
    cases hgrid : r.gridPoint? tie power with
    | some n =>
      rw [hgrid, Option.some.injEq] at h
      exact ⟨n, power, hgrid, h.symm⟩
    | none =>
      rw [hgrid] at h
      exact gridPoint?_of_firstPoint? h

/-- A search that starts above the grid of the integers, where there is a point, does not go below
it. -/
theorem firstPoint?_of_integer {r : RoundingInterval} {tie : Tie}
    (hzero : (r.gridPoint? tie 0).isSome) :
    ∀ {grids power : Nat}, power < grids →
      ∃ n p : Nat, r.gridPoint? tie p = some n
        ∧ r.firstPoint? tie grids power = some (Scientific.ofDecimal n p)
  | 0, _, h => absurd h (Nat.not_lt_zero _)
  | grids + 1, power, h => by
    unfold firstPoint?
    cases hgrid : r.gridPoint? tie power with
    | some n => exact ⟨n, power, hgrid, rfl⟩
    | none =>
      cases power with
      | zero => rw [Nat.cast_zero] at hgrid; rw [hgrid] at hzero; simp at hzero
      | succ power =>
        -- The search has not reached the integers yet and goes on one grid below.
        have hprev : ((power + 1 : ℕ) : Int) - 1 = (power : ℕ) := by omega
        rw [hprev]
        exact firstPoint?_of_integer hzero (Nat.lt_of_succ_lt_succ h)

/-- The magnitude of a nonzero ordinal lies inside its own interval. -/
theorem around_holds_value {ordinal : Nat} (h : 0 < ordinal) :
    (around ordinal).Holds (2 * unitsAt ordinal : ℕ) := by
  have hbelow : unitsAt (ordinal - 1) < unitsAt ordinal :=
    unitsAt_strictMono (Nat.sub_lt h (by decide))
  have habove := unitsAt_lt_succ ordinal
  have hlow : (around ordinal).low < 2 * unitsAt ordinal := by simp only [around]; omega
  have hhigh : 2 * unitsAt ordinal < (around ordinal).high := by simp only [around]; omega
  have hlow' : ((around ordinal).low : ℚ) < (2 * unitsAt ordinal : ℕ) := by exact_mod_cast hlow
  have hhigh' : ((2 * unitsAt ordinal : ℕ) : ℚ) < (around ordinal).high := by exact_mod_cast hhigh
  exact ⟨⟨hlow'.le, hhigh'.le⟩, fun _ => ⟨hlow'.ne, hhigh'.ne⟩⟩

end RoundingInterval

/-! ## The digits found -/

/-- The magnitude at an ordinal written out in decimals. -/
theorem exactDecimal_units (units : Nat) :
    ((units * Nat.pow 5 1074 : ℕ) : ℚ) * 10 ^ (-1074 : Int) * halfUnits = (2 * units : ℕ) := by
  obtain ⟨k, hk, hunits⟩ := exists_unitsInOne
  have hten : (10 : ℚ) ^ k = 5 ^ k * 2 ^ k := by rw [← mul_pow]; norm_num
  have hone : ((Nat.pow 5 k : ℕ) : ℚ) * 10 ^ (-(k : Int)) * unitsInOne = 1 := by
    rw [zpow_neg, zpow_natCast, hten, hunits, Nat.pow_eq]
    push_cast
    field_simp
  rw [show (-1074 : Int) = -(k : Int) by omega, ← hk]
  calc ((units * Nat.pow 5 k : ℕ) : ℚ) * 10 ^ (-(k : Int)) * halfUnits
      = 2 * units * (((Nat.pow 5 k : ℕ) : ℚ) * 10 ^ (-(k : Int)) * unitsInOne) := by
        rw [halfUnits, Nat.cast_mul]
        ring
    _ = (2 * units : ℕ) := by
        rw [hone]
        push_cast
        ring

/-- What the search yields: a decimal inside the rounding interval. -/
theorem shortest_eq_ofDecimal (tie : Tie) {ordinal : Nat} (hpos : 0 < ordinal) :
    ∃ n power, 0 < n ∧ shortest tie ordinal = Scientific.ofDecimal n power
      ∧ (RoundingInterval.around ordinal).Holds (n * 10 ^ power * halfUnits) := by
  obtain ⟨n, power, heq, hholds⟩ : ∃ n power, shortest tie ordinal = Scientific.ofDecimal n power
      ∧ (RoundingInterval.around ordinal).Holds (n * 10 ^ power * halfUnits) := by
    unfold shortest
    cases hfirst : (RoundingInterval.around ordinal).firstPoint? tie 25 (powerAbove ordinal) with
    | some s =>
      obtain ⟨n, power, hgrid, rfl⟩ := RoundingInterval.gridPoint?_of_firstPoint? hfirst
      exact ⟨n, power, rfl, RoundingInterval.holds_of_gridPoint? hgrid⟩
    | none =>
      refine ⟨_, -1074, rfl, ?_⟩
      rw [exactDecimal_units]
      exact RoundingInterval.around_holds_value hpos
  exact ⟨n, power, coefficient_pos hpos hholds, heq, hholds⟩

/-- **The digits of a nonzero double lie in its rounding interval.** -/
theorem shortest_holds (tie : Tie) {ordinal : Nat} (hpos : 0 < ordinal) :
    (RoundingInterval.around ordinal).Holds ((shortest tie ordinal).magnitude * halfUnits) := by
  obtain ⟨n, power, _, heq, hholds⟩ := shortest_eq_ofDecimal tie hpos
  rw [heq, Scientific.magnitude_ofDecimal]
  exact hholds

theorem shortest_front (tie : Tie) {ordinal : Nat} (hpos : 0 < ordinal) :
    ∃ d rest, (shortest tie ordinal).digits = d :: rest ∧ d ≠ Digit.zero := by
  obtain ⟨n, power, hn, heq, _⟩ := shortest_eq_ofDecimal tie hpos
  rw [heq]
  exact significantDigits_front hn

/-! ## Integers -/

/-- Below `2 ^ 53` the next double is at most one further. -/
theorem unitsAt_succ_le {ordinal : Nat} (h : unitsAt ordinal < 2 ^ 53 * unitsInOne) :
    unitsAt (ordinal + 1) ≤ unitsAt ordinal + unitsInOne := by
  obtain ⟨shift, k, rfl, hlow, hhigh⟩ := exists_shift ordinal
  rw [unitsAt_shift hlow hhigh.le] at h
  rw [Nat.add_assoc, unitsAt_shift hlow hhigh.le, unitsAt_shift (by omega) hhigh, Nat.succ_mul]
  -- A larger shift would lift the magnitude beyond the bound.
  have hshift : shift ≤ 1074 := by
    rcases hlow with hlow | rfl
    · have hmantissas : mantissas = 2 ^ 52 := by decide
      rw [hmantissas] at hlow
      have hpow : 2 ^ (52 + shift) < 2 ^ 1127 := by
        rw [pow_add, ← two_pow_mul_unitsInOne (n := 53) rfl]
        exact lt_of_le_of_lt (Nat.mul_le_mul_right _ hlow) h
      have := (Nat.pow_lt_pow_iff_right (by decide : 1 < 2)).mp hpow
      omega
    · exact Nat.zero_le _
  have hle : 2 ^ shift ≤ unitsInOne := by
    obtain ⟨e, he, hunits⟩ := exists_unitsInOne
    rw [hunits]
    exact Nat.pow_le_pow_right (by decide) (he ▸ hshift)
  exact Nat.add_le_add_left hle _

/-- Every integer up to `2 ^ 53` is a double. -/
theorem exists_ordinal_of_integer {n : Nat} (hpos : 0 < n) (hle : n ≤ 2 ^ 53) :
    ∃ ordinal, 0 < ordinal ∧ ordinal < Double.ordinalBound
      ∧ unitsAt ordinal = n * unitsInOne := by
  have hmantissas : mantissas = 2 ^ 52 := by decide
  -- `k` is the place of the leading bit, except at the upper end, which closes the last binade.
  obtain ⟨k, hk, hlow, hhigh⟩ : ∃ k, k ≤ 52 ∧ 2 ^ k ≤ n ∧ n ≤ 2 ^ (k + 1) := by
    rcases Nat.lt_or_ge n.log2 53 with hlog | hlog
    · exact ⟨n.log2, by omega, Nat.log2_self_le hpos.ne', Nat.lt_log2_self.le⟩
    · have := Nat.log2_self_le hpos.ne'
      have := Nat.pow_le_pow_right (show 0 < 2 by decide) hlog
      exact ⟨52, le_refl _, by omega, hle⟩
  have hone : mantissas ≤ n * 2 ^ (52 - k) := by
    have := Nat.mul_le_mul_right (2 ^ (52 - k)) hlow
    rwa [← pow_add, Nat.add_sub_cancel' hk, ← hmantissas] at this
  have htwo : n * 2 ^ (52 - k) ≤ 2 * mantissas := by
    have := Nat.mul_le_mul_right (2 ^ (52 - k)) hhigh
    rwa [← pow_add, show k + 1 + (52 - k) = 52 + 1 by omega, pow_succ, ← hmantissas,
      Nat.mul_comm mantissas] at this
  have hunits : unitsAt ((1022 + k) * mantissas + n * 2 ^ (52 - k)) = n * unitsInOne := by
    obtain ⟨e, he, hunits⟩ := exists_unitsInOne
    rw [unitsAt_shift (Or.inl hone) htwo, Nat.mul_assoc, ← pow_add,
      show 52 - k + (1022 + k) = e by omega, hunits]
  refine ⟨(1022 + k) * mantissas + n * 2 ^ (52 - k), ?_, ?_, hunits⟩
  · have : 0 < mantissas := by decide
    omega
  · rw [← unitsAt_strictMono.lt_iff_lt, hunits, unitsAt_ordinalBound]
    refine lt_of_le_of_lt (Nat.mul_le_mul_right _ hle) ?_
    rw [two_pow_mul_unitsInOne (n := 53) rfl]
    exact pow_lt_pow_right₀ (by decide) (by decide)

/-- The interval around an integer below `2 ^ 53` holds no other integer. -/
theorem eq_of_holds_integer {ordinal n m : Nat} (hpos : 0 < ordinal) (hlt : n < 2 ^ 53)
    (hunits : unitsAt ordinal = n * unitsInOne)
    (h : (RoundingInterval.around ordinal).Holds (m * halfUnits)) : m = n := by
  have hbound : unitsAt ordinal < 2 ^ 53 * unitsInOne := by
    rw [hunits]
    exact Nat.mul_lt_mul_of_pos_right hlt unitsInOne_pos
  have hprev : unitsAt (ordinal - 1) < unitsAt ordinal :=
    unitsAt_strictMono (Nat.sub_lt hpos (by decide))
  have habove := unitsAt_succ_le hbound
  have hbelow := unitsAt_succ_le (lt_trans hprev hbound)
  rw [Nat.sub_add_cancel hpos] at hbelow
  have hcast : (m : ℚ) * halfUnits = (m * (2 * unitsInOne) : ℕ) := by
    rw [halfUnits]
    push_cast
    ring
  have hlow := h.low_le
  have hhigh := h.le_high
  rw [hcast, Nat.cast_le] at hlow hhigh
  simp only [RoundingInterval.around] at hlow hhigh
  have hunit := unitsInOne_pos
  -- The next integer is one away, and the interval ends before that: doubles are no further apart.
  have hle : m ≤ n := by
    by_contra hgt
    have := Nat.mul_le_mul_right (2 * unitsInOne) (show n + 1 ≤ m by omega)
    rw [Nat.add_mul, Nat.mul_left_comm n] at this
    omega
  have hge : n ≤ m := by
    by_contra hgt
    have := Nat.mul_le_mul_right (2 * unitsInOne) (show m + 1 ≤ n by omega)
    rw [Nat.add_mul, Nat.mul_left_comm n] at this
    omega
  omega

/-- The grid of the integers has a point in the interval around an integer. -/
theorem gridPoint?_zero_isSome (tie : Tie) {ordinal n : Nat} (hpos : 0 < ordinal)
    (hunits : unitsAt ordinal = n * unitsInOne) :
    ((RoundingInterval.around ordinal).gridPoint? tie 0).isSome := by
  have hscale : Nat.pow 10 (-(0 : Int)).toNat = 1 := rfl
  have hgrid : Nat.pow 10 (0 : Int).toNat = 1 := rfl
  have hvalue : (RoundingInterval.around ordinal).value = n * (2 * unitsInOne) := by
    simp only [RoundingInterval.around, hunits]
    ring
  have hbelow : n * (2 * unitsInOne) / (2 * unitsInOne) = n :=
    Nat.mul_div_cancel _ (Nat.mul_pos (by decide) unitsInOne_pos)
  have hcontains : (RoundingInterval.around ordinal).contains 1 (n * (2 * unitsInOne)) = true := by
    rw [RoundingInterval.holds_iff_contains _ (by decide), Nat.cast_one, div_one, ← hvalue]
    exact RoundingInterval.around_holds_value hpos
  unfold RoundingInterval.gridPoint?
  rw [two_mul_unitsInOne, hscale, hgrid, hvalue]
  simp only [Nat.mul_one, Nat.one_mul, hbelow, hcontains]
  cases (RoundingInterval.around ordinal).contains 1 ((n + 1) * (2 * unitsInOne)) <;> rfl

theorem powerAbove_of_integer {ordinal n : Nat} (hpos : 0 < n) (hlt : n < 2 ^ 53)
    (hunits : unitsAt ordinal = n * unitsInOne) :
    ∃ power : Nat, powerAbove ordinal = power ∧ power < 25 := by
  obtain ⟨e, he, hone⟩ := exists_unitsInOne
  have hlog : (unitsAt ordinal).log2 = n.log2 + e := by
    have hne : n * 2 ^ e ≠ 0 := Nat.mul_ne_zero hpos.ne' (Nat.pow_pos (by decide)).ne'
    rw [hunits, hone, Nat.log2_eq_iff hne, pow_add, Nat.add_right_comm, pow_add]
    exact ⟨Nat.mul_le_mul_right _ (Nat.log2_self_le hpos.ne'),
      Nat.mul_lt_mul_of_pos_right Nat.lt_log2_self (Nat.pow_pos (by decide))⟩
  have hsmall : n.log2 < 53 := (Nat.log2_lt hpos.ne').mpr hlt
  refine ⟨(powerAbove ordinal).toNat, ?_, ?_⟩ <;> unfold powerAbove <;> omega

/-- **The digits of an integer that is exactly a double are its own.** -/
theorem shortest_of_integer (tie : Tie) {n : Nat} (hpos : 0 < n) (hle : n ≤ 2 ^ 53) :
    ∃ ordinal, 0 < ordinal ∧ ordinal < Double.ordinalBound ∧ unitsAt ordinal = n * unitsInOne
      ∧ shortest tie ordinal = Scientific.ofDecimal n 0 := by
  obtain ⟨ordinal, hord, hbound, hunits⟩ := exists_ordinal_of_integer hpos hle
  refine ⟨ordinal, hord, hbound, hunits, ?_⟩
  rcases Nat.lt_or_ge n (2 ^ 53) with hlt | hge
  · obtain ⟨power, hpower, hgrids⟩ := powerAbove_of_integer hpos hlt hunits
    obtain ⟨m, p, hgrid, hfirst⟩ := RoundingInterval.firstPoint?_of_integer
      (gridPoint?_zero_isSome tie hord hunits) hgrids
    have hholds := RoundingInterval.holds_of_gridPoint? hgrid
    have hcast : (m : ℚ) * 10 ^ (p : Int) = ((m * 10 ^ p : ℕ) : ℚ) := by
      rw [zpow_natCast]
      push_cast
      rfl
    rw [hcast] at hholds
    -- The point that was found is an integer, and there is only one in the interval.
    have hval : m * 10 ^ p = n := eq_of_holds_integer hord hlt hunits hholds
    have hm : 0 < m := Nat.pos_of_ne_zero fun hz => by simp [hz] at hval; omega
    rw [shortest, hpower, hfirst, Option.getD_some, ← hval, Scientific.ofDecimal_mul_pow hm]
  · -- The spacing doubles at `2 ^ 53`, so the next integer lies in the interval too.
    have htop : n = 2 ^ 53 := le_antisymm hle hge
    have hordinal : ordinal = 1075 * mantissas + mantissas := by
      apply unitsAt_strictMono.injective
      rw [hunits, htop]
      decide +kernel
    rw [hordinal, htop]
    cases tie <;> decide +kernel

end AuditTrail.Number
