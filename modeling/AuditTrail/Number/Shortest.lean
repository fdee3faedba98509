import AuditTrail.Number.Double

/-!
# The fewest digits that read back

The magnitudes that round to a given double form an interval around it, with its ends if the
ordinal is even. `shortest` looks on coarser and then finer decimal grids for a point of that
interval, and takes the first grid that has one: no decimal with fewer digits reads back as the
double. Of two points on that grid it takes the nearer; where both are equally near, the choice is
a parameter, because the two output formats differ in it.

All comparisons are between natural numbers, in multiples of half of `2 ^ -1074`.
-/

namespace AuditTrail.Number

/-- Digits `d₁ d₂ … dₖ` and an exponent `e`, for the number `d₁.d₂…dₖ · 10 ^ e`. -/
structure Scientific where
  digits : List Digit
  exponent : Int
  deriving DecidableEq, Repr

/-- Which of two equally near decimals is taken. -/
inductive Tie
  /-- The greater one. -/
  | up
  /-- The one with an even last digit. -/
  | toEven
  deriving DecidableEq, Repr

/-- The digits of `n` without the zeros at its end. -/
def significantDigits (n : Nat) : List Digit :=
  ((digitsOf n).reverse.dropWhile (· == Digit.zero)).reverse

/-- The number `n · 10 ^ power` in scientific form. -/
def Scientific.ofDecimal (n : Nat) (power : Int) : Scientific :=
  ⟨significantDigits n, power + (digitsOf n).length - 1⟩

/-- The interval of magnitudes that round to one ordinal, in half units of `2 ^ -1074`. -/
structure RoundingInterval where
  low : Nat
  value : Nat
  high : Nat
  /-- Whether the ends belong to the interval. -/
  closed : Bool

namespace RoundingInterval

/-- The interval that rounds to a nonzero ordinal. -/
def around (ordinal : Nat) : RoundingInterval :=
  { low := unitsAt (ordinal - 1) + unitsAt ordinal
    value := 2 * unitsAt ordinal
    high := unitsAt ordinal + unitsAt (ordinal + 1)
    closed := ordinal % 2 == 0 }

/-- Whether `point / scale` lies in the interval. -/
def contains (r : RoundingInterval) (scale point : Nat) : Bool :=
  if r.closed then decide (r.low * scale ≤ point ∧ point ≤ r.high * scale)
  else decide (r.low * scale < point ∧ point < r.high * scale)

/-- The multiple of `10 ^ power` that lies in the interval and is nearest to its value, as the
factor of `10 ^ power`; `none` if no multiple lies in it. -/
def gridPoint? (r : RoundingInterval) (tie : Tie) (power : Int) : Option Nat :=
  let grid := Nat.pow 10 power.toNat * Nat.pow 2 1075
  let scale := Nat.pow 10 (-power).toNat
  let below := r.value * scale / grid
  let rest := r.value * scale - below * grid
  let upper := match tie with
    | .up => decide (grid ≤ 2 * rest)
    | .toEven => decide (grid < 2 * rest ∨ (grid = 2 * rest ∧ below % 2 = 1))
  match r.contains scale (below * grid), r.contains scale ((below + 1) * grid) with
  | true, true => some (if upper then below + 1 else below)
  | true, false => some below
  | false, true => some (below + 1)
  | false, false => none

/-- The first grid with a point in the interval, from `10 ^ power` on towards finer ones. -/
def firstPoint? (r : RoundingInterval) (tie : Tie) : (grids : Nat) → (power : Int) → Option Scientific
  | 0, _ => none
  | grids + 1, power =>
    match r.gridPoint? tie power with
    | some n => some (Scientific.ofDecimal n power)
    | none => r.firstPoint? tie grids (power - 1)

end RoundingInterval

/-- A power of ten above the magnitude at `ordinal`, and not far above it: `0.30103` is just more
than the decimal logarithm of two. -/
def powerAbove (ordinal : Nat) : Int :=
  ((((unitsAt ordinal).log2 : Int) + 1 - 1074) * 30103) / 100000 + 2

/-- The exact decimal expansion of the magnitude at `ordinal`. -/
def exactDecimal (ordinal : Nat) : Scientific :=
  Scientific.ofDecimal (unitsAt ordinal * Nat.pow 5 1074) (-1074)

/-- The fewest digits that read back as the magnitude at a nonzero ordinal. Seventeen digits always
suffice; the exact expansion is there so that the result reads back whatever the search does. -/
def shortest (tie : Tie) (ordinal : Nat) : Scientific :=
  ((RoundingInterval.around ordinal).firstPoint? tie 25 (powerAbove ordinal)).getD
    (exactDecimal ordinal)

end AuditTrail.Number
