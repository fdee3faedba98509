import AuditTrail.Proofs.Number.Reading

/-!
# Where the point stands

The canonical layout of digits and an exponent has four shapes: the point behind the digits, between two of
them, in front of them, or after the first with an exponent. `Shape` says what each is, with the count of
the zeros that it fills up with, and every canonical numeral has one of the shapes (`shape_numeral`). What
follows is read off the shape:

> the text is the one that the rules of ECMAScript yield, which subtract the number of digits from the place
> of the point and cut the digits there (`Shape.text?_eq`), the numeral has no superfluous zero
> (`Shape.tidy`), and the exponent alone tells whether it is written out (`Shape.exponent_eq`).

`Scientific.text?` makes these rules partial: a difference below zero or a cut outside the digits has no
result. That they always have one is what the first of the three says beside the text.

Digits without a zero at either end are settled by their number (`Scientific.Normal.eq_of_magnitude_eq`), so
one text belongs to one sign, run of digits and exponent (`numeral_injective`).
-/

namespace AuditTrail.Number

/-! ## Digits without zeros at either end -/

/-- A run has a last digit, and that is no zero. -/
def NoTrailingZero (digits : List Digit) : Prop := ∃ rest d, digits = rest ++ [d] ∧ d ≠ Digit.zero

theorem NoTrailingZero.append {back : List Digit} (h : NoTrailingZero back) (front : List Digit) :
    NoTrailingZero (front ++ back) := by
  obtain ⟨rest, d, rfl, hd⟩ := h
  exact ⟨front ++ rest, d, (List.append_assoc front rest [d]).symm, hd⟩

theorem NoTrailingZero.of_append {front back : List Digit} (h : NoTrailingZero (front ++ back))
    (hback : back ≠ []) : NoTrailingZero back := by
  obtain ⟨rest, d, heq, hd⟩ := h
  obtain ⟨more, last, rfl⟩ := List.eq_nil_or_concat back |>.resolve_left hback
  rw [List.concat_eq_append, ← List.append_assoc] at heq
  obtain rfl := List.head_eq_of_cons_eq (List.append_inj_right' heq rfl)
  exact ⟨more, last, List.concat_eq_append, hd⟩

/-- Digits that neither begin nor end with a zero, of which there is at least one. -/
structure Scientific.Normal (s : Scientific) : Prop where
  front : ∃ d rest, s.digits = d :: rest ∧ d ≠ Digit.zero
  back : NoTrailingZero s.digits

theorem significantDigits_back {n : Nat} (h : 0 < n) : NoTrailingZero (significantDigits n) := by
  obtain ⟨d, rest, hfront, _⟩ := significantDigits_front h
  rw [significantDigits] at hfront ⊢
  cases hkept : (digitsOf n).reverse.dropWhile (· == Digit.zero) with
  | nil => rw [hkept] at hfront; exact absurd hfront (by simp)
  | cons last more =>
    -- What is dropped ends in front of a digit that is no zero.
    have hlast := List.head_dropWhile_not (· == Digit.zero) (l := (digitsOf n).reverse) (by simp [hkept])
    simp only [hkept, List.head_cons, beq_eq_false_iff_ne] at hlast
    exact ⟨more.reverse, last, by rw [List.reverse_cons], hlast⟩

theorem Scientific.normal_ofDecimal {n : Nat} (h : 0 < n) (power : Int) :
    (Scientific.ofDecimal n power).Normal :=
  ⟨significantDigits_front h, significantDigits_back h⟩

/-- The digits of a nonzero double neither begin nor end with a zero. -/
theorem normal_shortest (tie : Tie) {ordinal : Nat} (hpos : 0 < ordinal) :
    (shortest tie ordinal).Normal := by
  obtain ⟨n, power, hn, heq, _⟩ := shortest_eq_ofDecimal tie hpos
  rw [heq]
  exact Scientific.normal_ofDecimal hn power

section

variable {s s' : Scientific}

theorem Scientific.Normal.digits_ne_nil (h : s.Normal) : s.digits ≠ [] := by
  obtain ⟨d, rest, heq, _⟩ := h.front
  simp [heq]

theorem Scientific.Normal.ne_zero_of_cons (h : s.Normal) {d : Digit} {rest : List Digit}
    (hdigits : s.digits = d :: rest) : d ≠ Digit.zero := by
  obtain ⟨first, more, heq, hfirst⟩ := h.front
  exact List.head_eq_of_cons_eq (heq.symm.trans hdigits) ▸ hfirst

theorem Scientific.Normal.valueOf_mod_ten (h : s.Normal) : valueOf s.digits % 10 ≠ 0 := by
  obtain ⟨rest, d, heq, hd⟩ := h.back
  have hlt := d.isLt
  have hne : d.val ≠ 0 := fun hz => hd (Fin.ext hz)
  rw [heq, valueOf_append, valueOf_cons]
  simp only [List.length_singleton, pow_one, List.length_nil, pow_zero, mul_one, valueOf_nil, add_zero]
  omega

/-- The place of the last digit: the power of ten that the digits count. -/
def Scientific.place (s : Scientific) : Int := s.exponent + 1 - s.digits.length

theorem Scientific.magnitude_eq_place (s : Scientific) :
    s.magnitude = valueOf s.digits * 10 ^ s.place := rfl

/-- Of two forms of one number, the one that does not end with a zero counts the greater power of ten. -/
theorem Scientific.Normal.place_le (h : s.Normal) (hsame : s.magnitude = s'.magnitude) :
    s'.place ≤ s.place := by
  by_contra hlt
  obtain ⟨zeros, hzeros⟩ : ∃ zeros : ℕ, s'.place = (zeros + 1 : ℕ) + s.place :=
    ⟨(s'.place - s.place - 1).toNat, by omega⟩
  rw [Scientific.magnitude_eq_place, Scientific.magnitude_eq_place, hzeros, zpow_add₀ (by norm_num),
    zpow_natCast, ← mul_assoc] at hsame
  have hvalue : (valueOf s.digits : ℚ) = (valueOf s'.digits * 10 ^ (zeros + 1) : ℕ) := by
    rw [mul_right_cancel₀ (ten_zpow_pos s.place).ne' hsame]
    push_cast
    rfl
  have hnat : valueOf s.digits = valueOf s'.digits * 10 ^ (zeros + 1) := by exact_mod_cast hvalue
  -- Counted in the smaller power, the digits would end with a zero.
  apply h.valueOf_mod_ten
  rw [hnat, pow_succ, ← mul_assoc, Nat.mul_mod_left]

/-- **One number has one form without zeros at either end.** -/
theorem Scientific.Normal.eq_of_magnitude_eq (h : s.Normal) (h' : s'.Normal)
    (hsame : s.magnitude = s'.magnitude) : s = s' := by
  have hplace : s.place = s'.place := le_antisymm (h'.place_le hsame.symm) (h.place_le hsame)
  have hvalue : valueOf s.digits = valueOf s'.digits := by
    rw [Scientific.magnitude_eq_place, Scientific.magnitude_eq_place, hplace] at hsame
    exact_mod_cast mul_right_cancel₀ (ten_zpow_pos s'.place).ne' hsame
  have hdigits : s.digits = s'.digits := by
    rw [← digitsOf_valueOf (Or.inr h.front), ← digitsOf_valueOf (Or.inr h'.front), hvalue]
  have hexponent : s.exponent = s'.exponent := by
    rw [Scientific.place, Scientific.place, hdigits] at hplace
    omega
  obtain ⟨digits, exponent⟩ := s
  obtain ⟨digits', exponent'⟩ := s'
  rw [Scientific.mk.injEq]
  exact ⟨hdigits, hexponent⟩

end

/-! ## The four rules -/

/-- A run of digits cut in two; `none` if it is shorter than the part in front. -/
def splitAt? (places : Nat) (digits : List Digit) : Option (List Digit × List Digit) :=
  if places ≤ digits.length then some (digits.take places, digits.drop places) else none

/-- The text of digits and an exponent by the rules of ECMAScript, which compare how many digits there are
with where the point stands. Every difference must not be negative and every cut must lie inside the digits:
`none` if one does not. -/
def Scientific.text? (s : Scientific) : Option (List Char) :=
  let count : Int := s.digits.length
  let point := s.exponent + 1
  if count ≤ point ∧ point ≤ 21 then do
    let zeros ← (point - count).toNat?
    some (s.digits.map Digit.char ++ List.replicate zeros '0')
  else if 0 < point ∧ point ≤ 21 then do
    let places ← point.toNat?
    let (whole, fraction) ← splitAt? places s.digits
    some (whole.map Digit.char ++ '.' :: fraction.map Digit.char)
  else if -6 < point ∧ point ≤ 0 then do
    let zeros ← (-point).toNat?
    some ('0' :: '.' :: (List.replicate zeros '0' ++ s.digits.map Digit.char))
  else do
    let (first, rest) ← splitAt? 1 s.digits
    let fraction := if rest.isEmpty then [] else '.' :: rest.map Digit.char
    let sign := if 0 ≤ point - 1 then '+' else '-'
    some (first.map Digit.char ++ (fraction ++ 'e' :: sign :: naturalChars (point - 1).natAbs))

/-! ## The four shapes -/

/-- How the canonical layout puts digits and an exponent together: one constructor for each place that the
point can have. Counts of zeros are natural numbers, so they say which differences are not negative. -/
inductive Shape (negative : Bool) (s : Scientific) : Numeral → Prop
  /-- The point stands behind all digits, with zeros up to it. -/
  | whole (zeros : Nat) (count : s.exponent + 1 = s.digits.length + zeros) (high : s.exponent ≤ 20) :
    Shape negative s ⟨negative, s.digits ++ List.replicate zeros Digit.zero, none, none⟩
  /-- The point stands between two digits. -/
  | inside (front back : List Digit) (cut : s.digits = front ++ back)
    (count : s.exponent + 1 = front.length) (hfront : front ≠ []) (hback : back ≠ [])
    (high : s.exponent ≤ 20) : Shape negative s ⟨negative, front, some back, none⟩
  /-- The point stands in front of all digits, with zeros behind it. -/
  | behind (zeros : Nat) (count : s.exponent + 1 + zeros = 0) (low : -6 ≤ s.exponent) :
    Shape negative s
      ⟨negative, [Digit.zero], some (List.replicate zeros Digit.zero ++ s.digits), none⟩
  /-- The point would stand too far off, and an exponent says where. -/
  | power (d : Digit) (rest : List Digit) (cut : s.digits = d :: rest)
    (far : ¬ (-6 ≤ s.exponent ∧ s.exponent ≤ 20)) :
    Shape negative s ⟨negative, [d], Layout.canonical.fractionOf rest,
      some ⟨if s.exponent < 0 then .minus else .plus, digitsOf s.exponent.natAbs⟩⟩

section

variable {negative : Bool} {s : Scientific} {n : Numeral}

theorem fractionOf_of_ne_nil {ds : List Digit} (h : ds ≠ []) :
    Layout.canonical.fractionOf ds = some ds := by
  cases ds with
  | nil => exact absurd rfl h
  | cons d rest => rfl

theorem shape_positional (hlow : -6 ≤ s.exponent) (hhigh : s.exponent ≤ 20) :
    Shape negative s (Layout.canonical.positional negative s) := by
  rw [Layout.positional]
  dsimp only
  split
  · rename_i hpoint
    exact .behind _ (by omega) hlow
  · rename_i hpoint
    -- `places` digits stand in front of the point, if there are as many.
    obtain ⟨places, hplaces⟩ : ∃ places : ℕ, s.exponent + 1 = places :=
      ⟨(s.exponent + 1).toNat, by omega⟩
    rw [hplaces, Int.toNat_natCast]
    rcases Nat.lt_or_ge places s.digits.length with hlt | hge
    · have hback : s.digits.drop places ≠ [] := by
        rw [ne_eq, List.drop_eq_nil_iff]
        omega
      have hlength : (s.digits.take places).length = places := List.length_take_of_le hlt.le
      rw [Nat.sub_eq_zero_of_le hlt.le, List.replicate_zero, List.append_nil, fractionOf_of_ne_nil hback]
      refine .inside _ _ (List.take_append_drop places s.digits).symm (by rw [hlength, hplaces]) ?_ hback
        hhigh
      exact List.length_pos_iff.mp (by omega)
    · rw [List.take_of_length_le hge, List.drop_eq_nil_of_le hge]
      exact .whole _ (by omega) hhigh

theorem shape_exponential {d : Digit} {rest : List Digit} (hdigits : s.digits = d :: rest)
    (hfar : ¬ (-6 ≤ s.exponent ∧ s.exponent ≤ 20)) : Shape negative s (exponential negative s) := by
  have hnumeral : exponential negative s = ⟨negative, [d], Layout.canonical.fractionOf rest,
      some ⟨if s.exponent < 0 then .minus else .plus, digitsOf s.exponent.natAbs⟩⟩ := by
    rw [exponential, hdigits]
    cases rest <;> rfl
  rw [hnumeral]
  exact .power d rest hdigits hfar

/-- **Every canonical layout is one of the four.** -/
theorem shape_numeral (h : s.digits ≠ []) :
    Shape negative s (Layout.canonical.numeral negative s) := by
  unfold Layout.numeral
  split
  · rename_i hrange
    exact shape_positional hrange.1 hrange.2
  · rename_i hfar
    obtain ⟨d, rest, hdigits⟩ := List.exists_cons_of_ne_nil h
    exact shape_exponential hdigits hfar

/-- The text of a numeral behind its sign. -/
def Numeral.unsignedChars (n : Numeral) : List Char :=
  n.whole.map Digit.char ++ (Numeral.fractionChars n.fraction ++ Numeral.markedExponent 'e' n.exponent)

theorem Digit.char_zero : Digit.zero.char = '0' := rfl

theorem toNat?_natCast (count : Nat) : (count : Int).toNat? = some count := rfl

theorem splitAt?_append (front back : List Digit) :
    splitAt? front.length (front ++ back) = some (front, back) := by
  rw [splitAt?, if_pos (by simp), List.take_left, List.drop_left]

theorem fractionChars_fractionOf (ds : List Digit) :
    Numeral.fractionChars (Layout.canonical.fractionOf ds)
      = if ds.isEmpty then [] else '.' :: ds.map Digit.char := by
  cases ds <;> rfl

/-- **The four rules yield the text**: no difference is negative and no cut is outside the digits. -/
theorem Shape.text?_eq (hdigits : s.digits ≠ []) (h : Shape negative s n) :
    s.text? = some n.unsignedChars := by
  -- The conditions of the rules overlap; the counts of the shape say which of them is the first to hold.
  have hlength := List.length_pos_iff.mpr hdigits
  rw [Scientific.text?]
  dsimp only
  cases h with
  | whole zeros count high =>
    rw [if_pos (by omega), show s.exponent + 1 - s.digits.length = (zeros : ℕ) by omega, toNat?_natCast]
    simp [Numeral.unsignedChars, Digit.char_zero, Numeral.fractionChars, Numeral.markedExponent]
  | inside front back cut count hfront hback high =>
    have hfrontLength := List.length_pos_iff.mpr hfront
    have hbackLength := List.length_pos_iff.mpr hback
    have hcut : s.digits.length = front.length + back.length := by rw [cut, List.length_append]
    rw [if_neg (by omega), if_pos (by omega), count, toNat?_natCast, cut]
    simp [splitAt?_append, Numeral.unsignedChars, Numeral.fractionChars, Numeral.markedExponent]
  | behind zeros count low =>
    rw [if_neg (by omega), if_neg (by omega), if_pos (by omega),
      show -(s.exponent + 1) = (zeros : ℕ) by omega, toNat?_natCast]
    simp [Numeral.unsignedChars, Digit.char_zero, Numeral.fractionChars, Numeral.markedExponent]
  | power d rest cut far =>
    have hsplit : splitAt? 1 s.digits = some ([d], rest) := cut ▸ splitAt?_append [d] rest
    have hsign : (if 0 ≤ s.exponent then '+' else '-') :: naturalChars s.exponent.natAbs
        = Numeral.exponentSignChars (if s.exponent < 0 then .minus else .plus)
          ++ (digitsOf s.exponent.natAbs).map Digit.char := by
      by_cases hneg : s.exponent < 0
      · rw [if_pos hneg, if_neg (by omega)]
        rfl
      · rw [if_neg hneg, if_pos (by omega)]
        rfl
    rw [if_neg (by omega), if_neg (by omega), if_neg (by omega), hsplit, Int.add_sub_cancel]
    simp [Numeral.unsignedChars, fractionChars_fractionOf, Numeral.markedExponent, hsign]

/-! ## What every layout keeps to -/

/-- A numeral without superfluous zeros: none in front of the digits or of the exponent, none at the end of a
fraction, and one digit in front of the point where there is an exponent. -/
structure Numeral.Tidy (n : Numeral) : Prop where
  whole : NoLeadingZero n.whole
  fraction : ∀ ds, n.fraction = some ds → NoTrailingZero ds
  mantissa : n.exponent ≠ none → ∃ d, n.whole = [d] ∧ d ≠ Digit.zero
  exponent : ∀ e, n.exponent = some e → e.sign ≠ .unsigned ∧ NoLeadingZero e.digits

theorem noTrailingZero_of_fractionOf {front back ds : List Digit} (h : NoTrailingZero (front ++ back))
    (hds : Layout.canonical.fractionOf back = some ds) : NoTrailingZero ds := by
  cases back with
  | nil => exact absurd hds (by simp [Layout.fractionOf, Layout.canonical])
  | cons d rest =>
    rw [fractionOf_of_ne_nil (List.cons_ne_nil d rest)] at hds
    exact Option.some.inj hds ▸ h.of_append (List.cons_ne_nil d rest)

theorem Shape.tidy (hnormal : s.Normal) (h : Shape negative s n) : n.Tidy := by
  cases h with
  | whole zeros count high =>
    obtain ⟨d, rest, hdigits, hd⟩ := hnormal.front
    refine ⟨Or.inr ⟨d, rest ++ List.replicate zeros Digit.zero, ?_, hd⟩, fun _ hds => by simp at hds,
      fun h => absurd rfl h, fun _ he => by simp at he⟩
    rw [hdigits, List.cons_append]
  | inside front back cut count hfront hback high =>
    obtain ⟨d, rest, rfl⟩ := List.exists_cons_of_ne_nil hfront
    refine ⟨Or.inr ⟨d, rest, rfl, hnormal.ne_zero_of_cons cut⟩, fun ds hds => ?_, fun h => absurd rfl h,
      fun _ he => by simp at he⟩
    exact Option.some.inj hds ▸ (cut ▸ hnormal.back).of_append hback
  | behind zeros count low =>
    refine ⟨Or.inl rfl, fun ds hds => ?_, fun h => absurd rfl h, fun _ he => by simp at he⟩
    exact Option.some.inj hds ▸ hnormal.back.append _
  | power d rest cut far =>
    have hd := hnormal.ne_zero_of_cons cut
    refine ⟨Or.inr ⟨d, [], rfl, hd⟩, fun ds hds => ?_, fun _ => ⟨d, rfl, hd⟩, fun e he => ?_⟩
    · have hback : NoTrailingZero (d :: rest) := cut ▸ hnormal.back
      exact @noTrailingZero_of_fractionOf [d] _ _ hback hds
    · obtain rfl := Option.some.inj he
      refine ⟨?_, noLeadingZero_digitsOf _⟩
      dsimp only
      split <;> simp

/-- **The exponent alone decides whether a number is written out.** -/
theorem Shape.exponent_eq (h : Shape negative s n) : n.exponent =
    if -6 ≤ s.exponent ∧ s.exponent ≤ 20 then none
    else some ⟨if s.exponent < 0 then .minus else .plus, digitsOf s.exponent.natAbs⟩ := by
  cases h with
  | whole zeros count high => rw [if_pos ⟨by omega, high⟩]
  | inside front back cut count hfront hback high => rw [if_pos ⟨by omega, high⟩]
  | behind zeros count low => rw [if_pos ⟨low, by omega⟩]
  | power d rest cut far => rw [if_neg far]

end

/-! ## The canonical layout -/

/-- What a numeral is that writes digits and an exponent canonically. -/
structure LaidOut (negative : Bool) (s : Scientific) (n : Numeral) : Prop where
  /-- The four rules yield its text, and a sign stands in front of it. -/
  text : s.text?.map ((if negative then ['-'] else []) ++ ·) = some n.chars
  /-- The text follows the grammar of JSON, and its reader takes the whole of it. -/
  literal : n.Spells n.chars
  reads : Numeral.read? n.chars = some (n, [])
  sign : n.negative = negative
  /-- It denotes the number exactly. -/
  value : n.magnitude = s.magnitude
  /-- It is written out for the exponents from `-6` to `20`, and has an exponent with a sign for all
  others. -/
  form : n.exponent = if -6 ≤ s.exponent ∧ s.exponent ≤ 20 then none
    else some ⟨if s.exponent < 0 then .minus else .plus, digitsOf s.exponent.natAbs⟩
  tidy : n.Tidy

section

variable {negative negative' : Bool} {s s' : Scientific}

theorem laidOut_numeral (negative : Bool) (h : s.Normal) :
    LaidOut negative s (Layout.canonical.numeral negative s) := by
  obtain ⟨d, rest, hdigits, hd⟩ := h.front
  have hshape : Shape negative s (Layout.canonical.numeral negative s) :=
    shape_numeral h.digits_ne_nil
  have hwritten : (Layout.canonical.numeral negative s).Written := Layout.written_numeral hdigits hd
  have hliteral := Numeral.spells_chars hwritten
  have hreads := Numeral.read?_spelled hliteral Numeral.ends_nil
  rw [List.append_nil] at hreads
  have hsign := Layout.negative_numeral Layout.canonical negative s
  refine ⟨?_, hliteral, hreads, hsign, Layout.magnitude_numeral hdigits, hshape.exponent_eq,
    hshape.tidy h⟩
  rw [hshape.text?_eq h.digits_ne_nil, Option.map_some, Numeral.chars_eq, hsign]
  rfl

/-- **Different numbers have different texts.** -/
theorem numeral_injective (h : s.Normal) (h' : s'.Normal)
    (htext : (Layout.canonical.numeral negative s).chars = (Layout.canonical.numeral negative' s').chars) :
    negative = negative' ∧ s = s' := by
  have hlaid := laidOut_numeral negative h
  have hlaid' := laidOut_numeral negative' h'
  -- The text is read back as both numerals, so they are one.
  have hread := hlaid.reads
  rw [htext, hlaid'.reads, Option.some.injEq, Prod.mk.injEq] at hread
  obtain ⟨hnumeral, _⟩ := hread
  exact ⟨by rw [← hlaid.sign, ← hlaid'.sign, hnumeral],
    h.eq_of_magnitude_eq h' (by rw [← hlaid.value, ← hlaid'.value, hnumeral])⟩

end

end AuditTrail.Number
