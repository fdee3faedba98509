import AuditTrail.Number.Shortest
import Mathlib.Data.List.TakeWhile
import Mathlib.Tactic.Ring
import Mathlib.Tactic.Linarith

/-!
# Runs of digits and the numbers they denote

`valueOf` reads a run of digits and `digitsOf` writes one. The two facts everything above needs:

> writing and reading back changes nothing (`valueOf_digitsOf`), and a run without a superfluous
> zero in front is the one that is written for its value (`digitsOf_valueOf`).

The rest is the bookkeeping of zeros: at the end of a run they multiply by ten, in front of it they
do nothing, and `significantDigits` drops the ones at the end.
-/

namespace AuditTrail.Number

/-! ## Values of runs -/

theorem foldl_value (digits : List Digit) (n : Nat) :
    digits.foldl (fun n d => 10 * n + d.val) n = n * 10 ^ digits.length + valueOf digits := by
  -- The start value grows with every digit, so it varies in the induction.
  induction digits generalizing n with
  | nil => simp [valueOf]
  | cons d rest ih =>
    simp only [valueOf, List.foldl_cons, List.length_cons]
    rw [ih (10 * n + d.val), ih (10 * 0 + d.val)]
    ring

@[simp] theorem valueOf_nil : valueOf [] = 0 := rfl

theorem valueOf_cons (d : Digit) (rest : List Digit) :
    valueOf (d :: rest) = d.val * 10 ^ rest.length + valueOf rest := by
  rw [valueOf, List.foldl_cons, foldl_value]
  simp

theorem valueOf_append (front back : List Digit) :
    valueOf (front ++ back) = valueOf front * 10 ^ back.length + valueOf back := by
  rw [valueOf, List.foldl_append, foldl_value]
  rfl

@[simp] theorem Digit.val_zero : Digit.zero.val = 0 := rfl

@[simp] theorem valueOf_zeros (count : Nat) : valueOf (List.replicate count Digit.zero) = 0 := by
  induction count with
  | zero => rfl
  | succ count ih => rw [List.replicate_succ, valueOf_cons, ih]; simp

theorem valueOf_lt (digits : List Digit) : valueOf digits < 10 ^ digits.length := by
  induction digits with
  | nil => simp
  | cons d rest ih =>
    have hd : d.val + 1 ≤ 10 := d.isLt
    rw [valueOf_cons, List.length_cons, pow_succ]
    -- One more of the leading digit is worth more than all digits behind it.
    calc d.val * 10 ^ rest.length + valueOf rest
        < (d.val + 1) * 10 ^ rest.length := by rw [Nat.succ_mul]; omega
      _ ≤ 10 ^ rest.length * 10 := by rw [Nat.mul_comm]; exact Nat.mul_le_mul_left _ hd

/-- A run has no superfluous zero in front: it is the one digit zero, or does not start with it. -/
def NoLeadingZero (digits : List Digit) : Prop :=
  digits = [Digit.zero] ∨ ∃ d rest, digits = d :: rest ∧ d ≠ Digit.zero

theorem NoLeadingZero.ne_nil {digits : List Digit} (h : NoLeadingZero digits) : digits ≠ [] := by
  rcases h with rfl | ⟨d, rest, rfl, _⟩ <;> simp

theorem pow_le_valueOf {d : Digit} (hd : d ≠ Digit.zero) (rest : List Digit) :
    10 ^ rest.length ≤ valueOf (d :: rest) := by
  have hpos : 1 ≤ d.val := Nat.one_le_iff_ne_zero.mpr fun h => hd (Fin.ext h)
  rw [valueOf_cons]
  exact Nat.le_add_right_of_le (Nat.le_mul_of_pos_left _ hpos)

/-! ## Written runs -/

theorem valueOf_digitsUpTo :
    ∀ (places n : Nat), n < 10 ^ places → valueOf (digitsUpTo places n) = n
  | 0, n, h => by simp at h; simp [digitsUpTo, h]
  | places + 1, n, h => by
    rw [digitsUpTo]
    split
    · simp [valueOf_cons]
    · have hq : n / 10 < 10 ^ places := by
        rw [Nat.div_lt_iff_lt_mul (by decide), ← pow_succ]
        exact h
      rw [valueOf_append, valueOf_digitsUpTo places (n / 10) hq]
      simp only [List.length_singleton, pow_one, valueOf_cons, List.length_nil, pow_zero, mul_one,
        valueOf_nil, add_zero]
      omega

theorem lt_pow_log2 (n : Nat) : n < 10 ^ (n.log2 + 1) :=
  lt_of_lt_of_le Nat.lt_log2_self (Nat.pow_le_pow_left (by decide) _)

/-- **Reading a written number back.** -/
@[simp] theorem valueOf_digitsOf (n : Nat) : valueOf (digitsOf n) = n :=
  valueOf_digitsUpTo _ n (lt_pow_log2 n)

theorem digitsUpTo_front :
    ∀ (places n : Nat), 0 < n → n < 10 ^ places →
      ∃ d rest, digitsUpTo places n = d :: rest ∧ d ≠ Digit.zero
  | 0, n, hpos, h => by simp at h; omega
  | places + 1, n, hpos, h => by
    rw [digitsUpTo]
    split
    · exact ⟨_, [], rfl, fun hz => hpos.ne' (congrArg Fin.val hz)⟩
    · have hq : n / 10 < 10 ^ places := by
        rw [Nat.div_lt_iff_lt_mul (by decide), ← pow_succ]
        exact h
      obtain ⟨d, rest, heq, hd⟩ := digitsUpTo_front places (n / 10) (by omega) hq
      exact ⟨d, rest ++ [_], by rw [heq, List.cons_append], hd⟩

theorem digitsOf_front {n : Nat} (h : 0 < n) :
    ∃ d rest, digitsOf n = d :: rest ∧ d ≠ Digit.zero :=
  digitsUpTo_front _ n h (lt_pow_log2 n)

@[simp] theorem digitsOf_zero : digitsOf 0 = [Digit.zero] := by decide

theorem noLeadingZero_digitsOf (n : Nat) : NoLeadingZero (digitsOf n) := by
  rcases Nat.eq_zero_or_pos n with rfl | h
  · exact Or.inl digitsOf_zero
  · exact Or.inr (digitsOf_front h)

theorem digitsOf_ne_nil (n : Nat) : digitsOf n ≠ [] := (noLeadingZero_digitsOf n).ne_nil

theorem length_digitsOf_pos (n : Nat) : 0 < (digitsOf n).length :=
  List.length_pos_iff.mpr (digitsOf_ne_nil n)

theorem lt_pow_length_digitsOf (n : Nat) : n < 10 ^ (digitsOf n).length := by
  simpa using valueOf_lt (digitsOf n)

theorem pow_length_digitsOf_le {n : Nat} (h : 0 < n) : 10 ^ ((digitsOf n).length - 1) ≤ n := by
  obtain ⟨d, rest, heq, hd⟩ := digitsOf_front h
  have := pow_le_valueOf hd rest
  rw [← heq, valueOf_digitsOf] at this
  simpa [heq] using this

theorem length_digitsOf_le {n places : Nat} (h : n < 10 ^ (places + 1)) :
    (digitsOf n).length ≤ places + 1 := by
  rcases Nat.eq_zero_or_pos n with rfl | hpos
  · exact Nat.succ_le_succ (Nat.zero_le places)
  · have hlt := lt_of_le_of_lt (pow_length_digitsOf_le hpos) h
    have := (Nat.pow_lt_pow_iff_right (by decide)).mp hlt
    omega

/-- Two runs of one length and one value are the same run. -/
theorem eq_of_valueOf_eq :
    ∀ {a b : List Digit}, a.length = b.length → valueOf a = valueOf b → a = b
  | [], [], _, _ => rfl
  | x :: a, y :: b, hlen, hval => by
    have hlen' : a.length = b.length := by simpa using hlen
    rw [valueOf_cons, valueOf_cons, hlen'] at hval
    have ha := hlen' ▸ valueOf_lt a
    have hb := valueOf_lt b
    -- Both tails are below the power, so the leading digits are the quotients by it.
    have hfst : x.val = y.val := by
      have hquot := congrArg (· / 10 ^ b.length) hval
      have hpos : 0 < 10 ^ b.length := Nat.pow_pos (by decide)
      simpa only [Nat.add_comm (_ * _), Nat.add_mul_div_right _ _ hpos,
        Nat.div_eq_of_lt ha, Nat.div_eq_of_lt hb, Nat.zero_add] using hquot
    rw [hfst] at hval
    have hrest : valueOf a = valueOf b := by omega
    rw [Fin.ext hfst, eq_of_valueOf_eq hlen' hrest]
  | [], _ :: _, hlen, _ => by simp at hlen
  | _ :: _, [], hlen, _ => by simp at hlen

theorem length_eq_of_front {x y : Digit} {a b : List Digit} (hx : x ≠ Digit.zero)
    (hy : y ≠ Digit.zero) (h : valueOf (x :: a) = valueOf (y :: b)) : a.length = b.length := by
  have hxlow := pow_le_valueOf hx a
  have hylow := pow_le_valueOf hy b
  have hxhigh := valueOf_lt (x :: a)
  have hyhigh := valueOf_lt (y :: b)
  rw [List.length_cons] at hxhigh hyhigh
  have hab := (Nat.pow_lt_pow_iff_right (by decide : 1 < 10)).mp
    (lt_of_le_of_lt (h ▸ hxlow) hyhigh)
  have hba := (Nat.pow_lt_pow_iff_right (by decide : 1 < 10)).mp
    (lt_of_le_of_lt (h ▸ hylow) hxhigh)
  omega

/-- **A run without a superfluous zero is the one that is written for its value.** -/
theorem digitsOf_valueOf {digits : List Digit} (h : NoLeadingZero digits) :
    digitsOf (valueOf digits) = digits := by
  rcases h with rfl | ⟨d, rest, rfl, hd⟩
  · decide
  · have hpos : 0 < valueOf (d :: rest) :=
      lt_of_lt_of_le (Nat.pos_of_ne_zero (by simp)) (pow_le_valueOf hd rest)
    obtain ⟨d', rest', heq, hd'⟩ := digitsOf_front hpos
    have hval : valueOf (d' :: rest') = valueOf (d :: rest) := by rw [← heq, valueOf_digitsOf]
    -- Without a zero in front the value tells the length, and with the length it tells the digits.
    have hlen := length_eq_of_front hd' hd hval
    rw [heq]
    exact eq_of_valueOf_eq (by simp [hlen]) hval

/-! ## Zeros at the end -/

/-- The digits of a number are its significant ones and then zeros. -/
theorem digitsOf_eq_significant (n : Nat) :
    ∃ zeros, digitsOf n = significantDigits n ++ List.replicate zeros Digit.zero := by
  refine ⟨((digitsOf n).reverse.takeWhile (· == Digit.zero)).length, ?_⟩
  have hzeros : (digitsOf n).reverse.takeWhile (· == Digit.zero)
      = List.replicate ((digitsOf n).reverse.takeWhile (· == Digit.zero)).length Digit.zero :=
    List.eq_replicate_iff.mpr ⟨rfl, fun d hd => by simpa using List.mem_takeWhile_imp hd⟩
  have hsplit : (digitsOf n).reverse.takeWhile (· == Digit.zero)
      ++ (digitsOf n).reverse.dropWhile (· == Digit.zero) = (digitsOf n).reverse :=
    List.takeWhile_append_dropWhile
  have := congrArg List.reverse hsplit
  rw [List.reverse_append, List.reverse_reverse, hzeros, List.reverse_replicate] at this
  rw [significantDigits]
  simpa using this.symm

theorem significantDigits_front {n : Nat} (h : 0 < n) :
    ∃ d rest, significantDigits n = d :: rest ∧ d ≠ Digit.zero := by
  obtain ⟨zeros, hsplit⟩ := digitsOf_eq_significant n
  obtain ⟨d, rest, heq, hd⟩ := digitsOf_front h
  cases hs : significantDigits n with
  | nil =>
    rw [hs, List.nil_append, heq] at hsplit
    -- A number of zeros only would begin with one.
    exact absurd (List.eq_of_mem_replicate (hsplit ▸ List.mem_cons_self)) hd
  | cons d' rest' =>
    rw [hs, heq, List.cons_append, List.cons.injEq] at hsplit
    exact ⟨d', rest', rfl, hsplit.1 ▸ hd⟩

/-- The value of the significant digits, with the zeros put back. -/
theorem valueOf_significantDigits (n : Nat) :
    valueOf (significantDigits n)
      * 10 ^ ((digitsOf n).length - (significantDigits n).length) = n := by
  obtain ⟨zeros, hsplit⟩ := digitsOf_eq_significant n
  have hval := congrArg valueOf hsplit
  have hlen := congrArg List.length hsplit
  rw [valueOf_append, valueOf_zeros, valueOf_digitsOf] at hval
  rw [List.length_append, List.length_replicate] at hlen
  rw [hlen, Nat.add_sub_cancel_left]
  simpa using hval.symm

theorem length_significantDigits_le (n : Nat) :
    (significantDigits n).length ≤ (digitsOf n).length := by
  obtain ⟨zeros, hsplit⟩ := digitsOf_eq_significant n
  simp [hsplit]

end AuditTrail.Number
