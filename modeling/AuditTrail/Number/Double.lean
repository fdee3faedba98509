import AuditTrail.Number.Numeral

/-!
# Finite binary64 numbers in exact arithmetic

The magnitudes of the finite doubles are finitely many multiples of `2 ^ -1074`. A double is kept
as its sign and its place in the increasing list of these magnitudes (its *ordinal*): neighbours
are neighbouring ordinals, an even significand is an even ordinal, and every rounding rule becomes
arithmetic on natural numbers. No hardware number is involved.

`unitsAt` gives the magnitude at an ordinal as a multiple of `2 ^ -1074`; `nearestOrdinal` finds
the ordinal nearest to a quotient, a tie going to the even one; `Double.ofDecimal?` reads a decimal
fraction, and is `none` exactly where rounding would leave the finite range.
-/

namespace AuditTrail.Number

/-- The number of magnitudes that share a power of two: `2 ^ 52`. -/
def mantissas : Nat := 4503599627370496

/-- The number of finite magnitudes: ordinals stay below it. -/
def Double.ordinalBound : Nat := 2047 * mantissas

/-- A finite double: its sign and the place of its magnitude among all finite magnitudes. -/
structure Double where
  negative : Bool
  ordinal : Nat
  ordinal_lt : ordinal < Double.ordinalBound
  deriving DecidableEq

/-- The magnitude at an ordinal, as a multiple of `2 ^ -1074`. -/
def unitsAt (ordinal : Nat) : Nat :=
  if ordinal < 2 * mantissas then ordinal
  else (mantissas + ordinal % mantissas) * Nat.pow 2 (ordinal / mantissas - 1)

/-- The ordinal whose magnitude is nearest to `num / den` multiples of `2 ^ -1074`; of two equally
near ones the even. The result is not bounded: from `Double.ordinalBound` on it stands for an
overflow. -/
def nearestOrdinal (num den : Nat) : Nat :=
  let shift := (num / den).log2 - 52
  let step := den * Nat.pow 2 shift
  let below := shift * mantissas + num / step
  let rest := num % step
  if step < 2 * rest ∨ (2 * rest = step ∧ below % 2 = 1) then below + 1 else below

namespace Double

/-- The double with a sign and an ordinal, if the ordinal is in range. -/
def ofOrdinal? (negative : Bool) (ordinal : Nat) : Option Double :=
  if h : ordinal < ordinalBound then some ⟨negative, ordinal, h⟩ else none

/-- The zero of a sign. -/
def zero (negative : Bool) : Double := ⟨negative, 0, by decide⟩

/-- Whether a double is one of the two zeros. -/
def isZero (d : Double) : Bool := d.ordinal == 0

/-- The double nearest to `± coefficient · 10 ^ scale`; `none` if that is beyond the finite range.
The two outer tests keep the powers of ten small: a coefficient of `k` digits is at least
`10 ^ (k - 1)` and below `10 ^ k`. -/
def ofDecimal? (negative : Bool) (coefficient : Nat) (scale : Int) : Option Double :=
  if coefficient = 0 then some (zero negative)
  else
    let places : Int := (digitsOf coefficient).length
    if places + scale > 310 then none
    else if places + scale < -330 then some (zero negative)
    else
      let num := coefficient * Nat.pow 10 scale.toNat * Nat.pow 2 1074
      let den := Nat.pow 10 (-scale).toNat
      ofOrdinal? negative (nearestOrdinal num den)

/-- The double nearest to an integer; `none` only far beyond 64 bits. -/
def ofInt? (i : Int) : Option Double := ofDecimal? (decide (i < 0)) i.natAbs 0

end Double

end AuditTrail.Number
