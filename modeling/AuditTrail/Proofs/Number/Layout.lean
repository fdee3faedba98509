import AuditTrail.Number.Layout
import AuditTrail.Proofs.Number.Shortest

/-!
# What a laid-out numeral denotes

A layout moves the point and fills up with zeros. For every layout, sign, run of digits and exponent

> the numeral denotes the number it was made from (`Layout.magnitude_numeral`) and follows the
> grammar of JSON (`Layout.written_numeral`).

There are three shapes: in front of the digits, inside or behind them, and with an exponent. Each
gets one lemma of either kind; the theorems join them.
-/

namespace AuditTrail.Number

/-! ## Numerals -/

namespace Numeral

/-- The number a numeral denotes, without its sign. -/
def magnitude (n : Numeral) : ℚ := n.coefficient * 10 ^ n.scale

/-- A numeral that the grammar of JSON has: no superfluous zero in front, and a digit at least after
a point and after an exponent mark. -/
structure Written (n : Numeral) : Prop where
  whole : NoLeadingZero n.whole
  fraction : ∀ ds, n.fraction = some ds → ds ≠ []
  exponent : ∀ e, n.exponent = some e → e.digits ≠ []

theorem written_ofInt (i : Int) : (ofInt i).Written :=
  ⟨noLeadingZero_digitsOf _, fun _ h => by simp [ofInt] at h, fun _ h => by simp [ofInt] at h⟩

theorem scale_of_isWhole {n : Numeral} (h : n.isWhole = true) : n.scale = 0 := by
  simp only [isWhole, Bool.and_eq_true, Option.isNone_iff_eq_none] at h
  simp [scale, h.1, h.2]

end Numeral

/-! ## The three shapes -/

section

variable {layout : Layout} {negative : Bool} {s : Scientific}

/-- The power of ten in a scientific form splits at any place. -/
theorem Scientific.magnitude_eq (s : Scientific) (zeros : Nat) (scale : Int)
    (h : s.exponent + 1 - s.digits.length = zeros + scale) :
    s.magnitude = ((valueOf s.digits * 10 ^ zeros : ℕ) : ℚ) * 10 ^ scale := by
  rw [Scientific.magnitude, h, zpow_add₀ (by norm_num), zpow_natCast]
  push_cast
  ring

theorem fractionOf_ne_nil (layout : Layout) (ds found : List Digit)
    (h : layout.fractionOf ds = some found) : found ≠ [] := by
  unfold Layout.fractionOf at h
  split at h
  · split at h
    · rw [← Option.some.inj h]; simp
    · exact absurd h (by simp)
  · rename_i hne
    rw [← Option.some.inj h]
    exact hne

/-- The point stands in front of all digits. -/
theorem magnitude_positional_small (h : s.exponent + 1 ≤ 0) :
    (layout.positional negative s).magnitude = s.magnitude := by
  rw [Layout.positional, if_pos h, Numeral.magnitude, Numeral.coefficient, Numeral.digits,
    Numeral.scale, s.magnitude_eq 0 (s.exponent + 1 - s.digits.length) (by simp)]
  have hvalue : valueOf ([Digit.zero] ++ (some (List.replicate (-(s.exponent + 1)).toNat Digit.zero
      ++ s.digits)).getD []) = valueOf s.digits * 10 ^ 0 := by
    simp only [Option.getD_some, valueOf_append, valueOf_zeros]
    simp [valueOf_cons]
  have hscale : ((none : Option Exponent).map Exponent.value).getD 0
      - ((some (List.replicate (-(s.exponent + 1)).toNat Digit.zero ++ s.digits)).getD []).length
      = s.exponent + 1 - s.digits.length := by
    simp
    omega
  rw [hvalue, hscale]

/-- The point stands inside the digits, or behind them and the zeros that fill up to it. -/
theorem magnitude_positional_large (h : ¬ s.exponent + 1 ≤ 0) :
    (layout.positional negative s).magnitude = s.magnitude := by
  rw [Layout.positional, if_neg h]
  dsimp only
  set places := (s.exponent + 1).toNat with hplaces
  have hpoint : s.exponent + 1 = places := by omega
  have htake := List.take_append_drop places s.digits
  rw [Numeral.magnitude, Numeral.coefficient, Numeral.digits, Numeral.scale]
  dsimp only
  -- Either zeros fill up to the point, or no place in front of it is left.
  cases hdrop : s.digits.drop places with
  | nil =>
    have hlen : s.digits.length ≤ places := List.drop_eq_nil_iff.mp hdrop
    rw [List.take_of_length_le hlen]
    unfold Layout.fractionOf
    cases layout.keepPoint with
    | false =>
      rw [s.magnitude_eq (places - s.digits.length) 0 (by omega)]
      simp [valueOf_append]
    | true =>
      rw [s.magnitude_eq (places - s.digits.length + 1) (-1) (by omega)]
      simp [valueOf_append, valueOf_cons, pow_succ, mul_assoc]
  | cons d rest =>
    have hlen : s.digits.length = places + (d :: rest).length := by
      have hpos : (s.digits.drop places).length = (d :: rest).length := by rw [hdrop]
      rw [List.length_drop] at hpos
      simp only [List.length_cons] at hpos ⊢
      omega
    have hzeros : places - s.digits.length = 0 := by omega
    rw [hdrop] at htake
    rw [s.magnitude_eq 0 (-((d :: rest).length : Int)) (by omega), hzeros]
    simp only [Layout.fractionOf, List.replicate_zero, List.append_nil, Option.getD_some, htake,
      pow_zero, mul_one, Option.map_none, Option.getD_none, zero_sub]

theorem magnitude_exponential {d : Digit} {rest : List Digit} (h : s.digits = d :: rest) :
    (exponential negative s).magnitude = s.magnitude := by
  have hexponent : Exponent.value
      ⟨if s.exponent < 0 then ExponentSign.minus else ExponentSign.plus,
        digitsOf s.exponent.natAbs⟩ = s.exponent := by
    unfold Exponent.value
    by_cases hsign : s.exponent < 0
    · simp only [if_pos hsign, valueOf_digitsOf]
      omega
    · simp only [if_neg hsign, valueOf_digitsOf]
      omega
  rw [exponential, Numeral.magnitude, Numeral.coefficient, Numeral.digits, Numeral.scale, h]
  simp only [Option.map_some, hexponent, Option.getD_some, List.take_succ_cons, List.take_zero,
    List.drop_succ_cons, List.drop_zero]
  rw [s.magnitude_eq 0 (s.exponent - rest.length) (by rw [h]; simp), h]
  cases rest with
  | nil => simp
  | cons d' rest => simp

/-- **A layout does not change the number.** -/
theorem Layout.magnitude_numeral {d : Digit} {rest : List Digit} (h : s.digits = d :: rest) :
    (layout.numeral negative s).magnitude = s.magnitude := by
  unfold Layout.numeral
  split
  · by_cases hpoint : s.exponent + 1 ≤ 0
    · exact magnitude_positional_small hpoint
    · exact magnitude_positional_large hpoint
  · exact magnitude_exponential h

theorem written_positional {d : Digit} {rest : List Digit} (h : s.digits = d :: rest)
    (hd : d ≠ Digit.zero) : (layout.positional negative s).Written := by
  unfold Layout.positional
  dsimp only
  split
  · refine ⟨Or.inl rfl, fun ds hds => ?_, fun _ he => by simp at he⟩
    rw [← Option.some.inj hds, h]
    simp
  · rename_i hpoint
    obtain ⟨places, hplaces⟩ : ∃ places, (s.exponent + 1).toNat = places + 1 :=
      ⟨(s.exponent + 1).toNat - 1, by omega⟩
    refine ⟨Or.inr ?_, fractionOf_ne_nil layout _, fun _ he => by simp at he⟩
    rw [hplaces, h, List.take_succ_cons, List.cons_append]
    exact ⟨d, _, rfl, hd⟩

theorem written_exponential {d : Digit} {rest : List Digit} (h : s.digits = d :: rest)
    (hd : d ≠ Digit.zero) : (exponential negative s).Written := by
  unfold exponential
  rw [h]
  refine ⟨Or.inr ⟨d, [], rfl, hd⟩, fun ds hds => ?_, fun e he => ?_⟩
  · cases rest with
    | nil => simp at hds
    | cons d' rest =>
      rw [← Option.some.inj hds]
      simp
  · rw [← Option.some.inj he]
    exact digitsOf_ne_nil _

/-- **A layout yields a numeral of the grammar.** -/
theorem Layout.written_numeral {d : Digit} {rest : List Digit} (h : s.digits = d :: rest)
    (hd : d ≠ Digit.zero) : (layout.numeral negative s).Written := by
  unfold Layout.numeral
  split
  · exact written_positional h hd
  · exact written_exponential h hd

theorem Layout.negative_numeral (layout : Layout) (negative : Bool) (s : Scientific) :
    (layout.numeral negative s).negative = negative := by
  unfold Layout.numeral Layout.positional exponential
  split
  · dsimp only
    split <;> rfl
  · rfl

end

/-! ## Integers -/

/-- The digits of an integer, laid out without a point, are the integer's own numeral. -/
theorem Layout.numeral_ofDecimal {layout : Layout} {n : Nat} (negative : Bool)
    (hleast : layout.least ≤ 0) (hgreatest : (digitsOf n).length ≤ layout.greatest)
    (hpoint : layout.keepPoint = false) :
    layout.numeral negative (Scientific.ofDecimal n 0) = ⟨negative, digitsOf n, none, none⟩ := by
  have hlen := length_digitsOf_pos n
  have hle := length_significantDigits_le n
  obtain ⟨zeros, hsplit⟩ := digitsOf_eq_significant n
  -- The zeros that fill up to the point are those that the significant digits have lost.
  have hzeros : (digitsOf n).length - (significantDigits n).length = zeros := by
    have := congrArg List.length hsplit
    rw [List.length_append, List.length_replicate] at this
    omega
  rw [Layout.numeral, Scientific.ofDecimal, if_pos (by dsimp only; omega), Layout.positional,
    if_neg (by dsimp only; omega)]
  dsimp only
  rw [show (0 + ((digitsOf n).length : Int) - 1 + 1).toNat = (digitsOf n).length by omega, hzeros,
    List.take_of_length_le hle, List.drop_eq_nil_of_le hle, ← hsplit]
  simp [Layout.fractionOf, hpoint]

end AuditTrail.Number
