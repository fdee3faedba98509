/-!
# Ranges of characters

A class of characters given by ranges of their code points.
-/

namespace AuditTrail.Text

/-- Whether a character lies in one of the given ranges, both ends included. -/
def inRanges (ranges : List (Nat × Nat)) (c : Char) : Bool :=
  ranges.any fun (first, last) => first ≤ c.toNat && c.toNat ≤ last

end AuditTrail.Text
