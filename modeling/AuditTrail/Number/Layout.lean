import AuditTrail.Number.Shortest

/-!
# Laying out digits as a numeral

A layout says for which exponents the digits of a number are written out in place and for which
they get an exponent. The hashed text and the wire text use the same digits and differ in the
layout (`Layout.canonical`, `Layout.wire`).
-/

namespace AuditTrail.Number

/-- Which exponents are written out in place, and whether a number without fraction keeps a point. -/
structure Layout where
  /-- The least exponent that is written out. -/
  least : Int
  /-- The greatest exponent that is written out. -/
  greatest : Int
  /-- Whether a whole number written out ends in `.0`. -/
  keepPoint : Bool
  deriving DecidableEq, Repr

/-- The layout of RFC 8785: in place from `10 ^ -6` to below `10 ^ 21`, whole numbers without a
point. -/
def Layout.canonical : Layout := ⟨-6, 20, false⟩

/-- The layout of the wire text: in place from `10 ^ -5` to below `10 ^ 16`, always with a point. -/
def Layout.wire : Layout := ⟨-5, 15, true⟩

/-- The digits after the point, if there are any or the layout wants one. -/
def Layout.fractionOf (layout : Layout) (digits : List Digit) : Option (List Digit) :=
  match digits with
  | [] => if layout.keepPoint then some [Digit.zero] else none
  | _ => some digits

/-- Digits written out in place: the point stands `exponent + 1` places into them, with zeros where
there are no digits. -/
def Layout.positional (layout : Layout) (negative : Bool) (s : Scientific) : Numeral :=
  let point := s.exponent + 1
  if point ≤ 0 then
    ⟨negative, [Digit.zero], some (List.replicate (-point).toNat Digit.zero ++ s.digits), none⟩
  else
    let places := point.toNat
    ⟨negative, s.digits.take places ++ List.replicate (places - s.digits.length) Digit.zero,
      layout.fractionOf (s.digits.drop places), none⟩

/-- Digits with an exponent: the point after the first digit, the sign of the exponent always
written. -/
def exponential (negative : Bool) (s : Scientific) : Numeral :=
  let fraction := match s.digits.drop 1 with
    | [] => none
    | rest => some rest
  let sign := if s.exponent < 0 then ExponentSign.minus else ExponentSign.plus
  ⟨negative, s.digits.take 1, fraction, some ⟨sign, digitsOf s.exponent.natAbs⟩⟩

/-- The numeral of digits and an exponent under a layout. -/
def Layout.numeral (layout : Layout) (negative : Bool) (s : Scientific) : Numeral :=
  if layout.least ≤ s.exponent ∧ s.exponent ≤ layout.greatest then layout.positional negative s
  else exponential negative s

end AuditTrail.Number
