import AuditTrail.Text.Base64Url
import Mathlib.Algebra.Group.Nat.Defs

/-!
# Octets read back from base64url text

Every octet goes through two groups of six bits and comes back from them, so decoding the text of octets
gives the octets (`decode?_encode`). The symbols of such a text are neither equals signs, which the reader
would pass over, nor the points that compact signatures are cut at.

The way back is as exact. What was decoded was the text of its octets, but for the equals signs at its end
(`decode?_eq_some`), so octets have one text; and a text that is refused has one of four faults
(`decode?_eq_none`). What the text of octets is can be said without cutting and putting together: the bits
of its symbols are the bits of the octets, filled up with zeros (`bits_encode`).
-/

namespace AuditTrail

theorem Text.trimEnd_of_forall {p : Char → Bool} {text : List Char} (h : ∀ c ∈ text, p c = false) :
    trimEnd p text = text := by
  unfold trimEnd
  cases htext : text.reverse with
  | nil => rw [List.reverse_eq_nil_iff.mp htext, List.dropWhile_nil, List.reverse_nil]
  | cons c rest =>
    have hc : c ∈ text := List.mem_reverse.mp (htext ▸ List.mem_cons_self)
    rw [List.dropWhile_cons_of_neg (by simp [h c hc]), ← htext, List.reverse_reverse]

theorem Text.trimEnd_append {p : Char → Bool} {tail : List Char} (h : ∀ c ∈ tail, p c = true)
    (text : List Char) : trimEnd p (text ++ tail) = trimEnd p text := by
  unfold trimEnd
  rw [List.reverse_append, List.dropWhile_append_of_pos fun c hc => h c (List.mem_reverse.mp hc)]

namespace Base64Url

/-! ## Symbols -/

/-- The symbols, each at the place of the six bits that it stands for. -/
def alphabet : List Char :=
  "ABCDEFGHIJKLMNOPQRSTUVWXYZabcdefghijklmnopqrstuvwxyz0123456789-_".toList

theorem alphabet_eq : alphabet = (List.finRange 64).map symbol := by decide +kernel

theorem mem_alphabet {c : Char} : c ∈ alphabet ↔ ∃ s, symbol s = c := by
  simp [alphabet_eq]

theorem idxOf_symbol : ∀ s : Sextet, alphabet.idxOf (symbol s) = s.val := by decide +kernel

theorem ofSymbol?_symbol : ∀ s : Sextet, ofSymbol? (symbol s) = some s := by decide

theorem symbol_plain : ∀ s : Sextet, symbol s ≠ '=' ∧ symbol s ≠ '.' := by decide

theorem mem_encode {bytes : Bytes} {c : Char} (h : c ∈ encode bytes) : c ≠ '=' ∧ c ≠ '.' := by
  obtain ⟨s, _, rfl⟩ := List.mem_map.mp h
  exact symbol_plain s

theorem mapM_ofSymbol? (groups : List Sextet) : (groups.map symbol).mapM ofSymbol? = some groups := by
  induction groups with
  | nil => rfl
  | cons s rest ih => simp [ofSymbol?_symbol, ih]

theorem val_ofNat {n : Nat} (h : n < 64) : (Fin.ofNat 64 n).val = n := Nat.mod_eq_of_lt h

theorem symbol_of_ofSymbol? {c : Char} {s : Sextet} (h : ofSymbol? c = some s) : symbol s = c := by
  rw [← Char.ofNat_toNat c]
  unfold ofSymbol? at h
  dsimp only at h
  -- Three ranges of characters, and then the two that stand alone.
  split at h
  · rw [← Option.some.inj h, symbol, val_ofNat (by omega)]
    rw [if_pos (by omega), Nat.add_sub_cancel' (by omega)]
  split at h
  · rw [← Option.some.inj h, symbol, val_ofNat (by omega)]
    rw [if_neg (by omega), if_pos (by omega), Nat.add_sub_cancel' (by omega)]
  split at h
  · rw [← Option.some.inj h, symbol, val_ofNat (by omega)]
    rw [if_neg (by omega), if_neg (by omega), if_pos (by omega), Nat.add_sub_cancel]
  split at h
  · rename_i hminus
    rw [← Option.some.inj h, hminus]
    rfl
  split at h
  · rename_i hunder
    rw [← Option.some.inj h, hunder]
    rfl
  · exact absurd h (by simp)

theorem ofSymbol?_eq_some {c : Char} {s : Sextet} : ofSymbol? c = some s ↔ symbol s = c :=
  ⟨symbol_of_ofSymbol?, fun h => h ▸ ofSymbol?_symbol s⟩

theorem ofSymbol?_eq_none {c : Char} : ofSymbol? c = none ↔ c ∉ alphabet := by
  simp only [Option.eq_none_iff_forall_ne_some, ne_eq, ofSymbol?_eq_some, mem_alphabet, not_exists]

theorem mapM_ofSymbol?_eq_some {text : List Char} {groups : List Sextet} :
    text.mapM ofSymbol? = some groups ↔ groups.map symbol = text := by
  refine ⟨fun h => ?_, fun h => h ▸ mapM_ofSymbol? groups⟩
  induction text generalizing groups with
  | nil =>
    obtain rfl := Option.some.inj h
    rfl
  | cons c rest ih =>
    simp only [List.mapM_cons, Option.bind_eq_bind, Option.bind_eq_some_iff, Option.pure_def,
      Option.some.injEq] at h
    obtain ⟨s, hs, more, hmore, rfl⟩ := h
    rw [List.map_cons, symbol_of_ofSymbol? hs, ih hmore]

theorem mapM_ofSymbol?_eq_none {text : List Char} :
    text.mapM ofSymbol? = none ↔ ∃ c ∈ text, c ∉ alphabet := by
  induction text with
  | nil => simp
  | cons c rest ih =>
    rw [List.mapM_cons]
    simp only [List.mem_cons, exists_eq_or_imp]
    rw [← ih, ← ofSymbol?_eq_none]
    cases ofSymbol? c with
    | none => simp
    | some s => cases rest.mapM ofSymbol? <;> simp

/-- An octet from the number it is put together to. -/
theorem ofNat_eq {a : UInt8} {n : Nat} (h : n = a.toNat) : UInt8.ofNat n = a := by
  rw [h, UInt8.ofNat_toNat]

theorem octets?_sextets (bytes : Bytes) : octets? (sextets bytes) = some bytes := by
  -- The last group has one, two or three octets, and a text of its own length for each.
  fun_induction sextets bytes with
  | case1 => rfl
  | case2 a =>
    have ha := a.toNat_lt
    rw [octets?, if_pos (by simp only [Fin.val_ofNat]; omega),
      ofNat_eq (a := a) (by simp only [Fin.val_ofNat]; omega)]
  | case3 a b =>
    have ha := a.toNat_lt
    have hb := b.toNat_lt
    rw [octets?, if_pos (by simp only [Fin.val_ofNat]; omega),
      ofNat_eq (a := a) (by simp only [Fin.val_ofNat]; omega),
      ofNat_eq (a := b) (by simp only [Fin.val_ofNat]; omega)]
  | case4 a b c rest ih =>
    have ha := a.toNat_lt
    have hb := b.toNat_lt
    have hc := c.toNat_lt
    rw [octets?, ih, Option.map_some, ofNat_eq (a := a) (by simp only [Fin.val_ofNat]; omega),
      ofNat_eq (a := b) (by simp only [Fin.val_ofNat]; omega),
      ofNat_eq (a := c) (by simp only [Fin.val_ofNat]; omega)]

/-- **The text of octets reads back.** -/
theorem decode?_encode (bytes : Bytes) : decode? (encode bytes) = some bytes := by
  have hplain : ∀ c ∈ encode bytes, (c == '=') = false := fun c hc => by
    simpa using (mem_encode hc).1
  unfold decode? decodeExact?
  rw [Text.trimEnd_of_forall hplain, encode, mapM_ofSymbol?, Option.bind_eq_bind, Option.bind_some]
  exact octets?_sextets bytes

/-! ## What was decoded -/

theorem toNat_ofNat {n : Nat} (h : n < 256) : (UInt8.ofNat n).toNat = n := UInt8.toNat_ofNat_of_lt' h

theorem sextet_eq {s : Sextet} {n : Nat} (h : n = s.val) : Fin.ofNat 64 n = s := by
  rw [h, Fin.ofNat_val_eq_self]

/-- The six bits that octets were put together from are those that the octets are cut into. -/
theorem sextets_of_octets? {groups : List Sextet} {bytes : Bytes} (h : octets? groups = some bytes) :
    sextets bytes = groups := by
  fun_induction octets? groups generalizing bytes with
  | case1 => rw [← Option.some.inj h, sextets]
  | case2 => exact absurd h (by simp)
  | case3 p q hunused =>
    have hp := p.isLt
    have hq := q.isLt
    rw [← Option.some.inj h, sextets, toNat_ofNat (by omega), sextet_eq (s := p) (by omega),
      sextet_eq (s := q) (by omega)]
  | case4 => exact absurd h (by simp)
  | case5 p q r hunused =>
    have hp := p.isLt
    have hq := q.isLt
    have hr := r.isLt
    rw [← Option.some.inj h, sextets, toNat_ofNat (by omega), toNat_ofNat (by omega),
      sextet_eq (s := p) (by omega), sextet_eq (s := q) (by omega), sextet_eq (s := r) (by omega)]
  | case6 => exact absurd h (by simp)
  | case7 p q r s rest ih =>
    have hp := p.isLt
    have hq := q.isLt
    have hr := r.isLt
    have hs := s.isLt
    obtain ⟨more, hmore, rfl⟩ := Option.map_eq_some_iff.mp h
    rw [sextets, ih hmore, toNat_ofNat (by omega), toNat_ofNat (by omega),
      toNat_ofNat (by omega), sextet_eq (s := p) (by omega), sextet_eq (s := q) (by omega),
      sextet_eq (s := r) (by omega), sextet_eq (s := s) (by omega)]

/-- **A text without anything at its end is decoded if it is the text of octets.** -/
theorem decodeExact?_eq_some {text : List Char} {bytes : Bytes} :
    decodeExact? text = some bytes ↔ text = encode bytes := by
  simp only [decodeExact?, Option.bind_eq_bind, Option.bind_eq_some_iff, mapM_ofSymbol?_eq_some]
  constructor
  · rintro ⟨groups, rfl, hbytes⟩
    rw [encode, sextets_of_octets? hbytes]
  · rintro rfl
    exact ⟨sextets bytes, rfl, octets?_sextets bytes⟩

theorem decode?_eq_some {text : List Char} {bytes : Bytes} :
    decode? text = some bytes ↔ Text.trimEnd (· == '=') text = encode bytes := by
  rw [decode?, decodeExact?_eq_some]

theorem decode?_padded (bytes : Bytes) (count : Nat) :
    decode? (encode bytes ++ List.replicate count '=') = some bytes := by
  have hplain : ∀ c ∈ encode bytes, (c == '=') = false := fun c hc => by
    simpa using (mem_encode hc).1
  have hpadding : ∀ c ∈ List.replicate count '=', (c == '=') = true := fun c hc => by
    simpa using List.eq_of_mem_replicate hc
  rw [decode?_eq_some, Text.trimEnd_append hpadding, Text.trimEnd_of_forall hplain]

/-! ## What is refused -/

/-- The bits of the last of `count` symbols that no octet has a share in. -/
def unusedBits (count : Nat) : Nat :=
  match count % 4 with
  | 2 => 4
  | 3 => 2
  | _ => 0

theorem unusedBits_add_four (count : Nat) : unusedBits (count + 4) = unusedBits count := by
  rw [unusedBits, Nat.add_mod_right, unusedBits]

/-- Groups of six bits that are no octets: one is left over, or a bit is set that belongs to none. -/
theorem octets?_eq_none {groups : List Sextet} :
    octets? groups = none ↔ groups.length % 4 = 1
      ∨ ∃ s, groups.getLast? = some s ∧ s.val % 2 ^ unusedBits groups.length ≠ 0 := by
  fun_induction octets? groups with
  | case1 => simp
  | case2 => simp
  | case3 p q hunused => simp [unusedBits, hunused]
  | case4 p q hunused => simp [unusedBits, hunused]
  | case5 p q r hunused => simp [unusedBits, hunused]
  | case6 p q r hunused => simp [unusedBits, hunused]
  | case7 p q r s rest ih =>
    rw [Option.map_eq_none_iff, ih]
    have hlength : (p :: q :: r :: s :: rest).length = rest.length + 4 := rfl
    rw [hlength, unusedBits_add_four, Nat.add_mod_right]
    -- The last group of the rest is the last of all, unless the rest is empty and no bit is unused.
    cases rest with
    | nil => simp [unusedBits, Nat.mod_one]
    | cons t rest => simp [List.getLast?_cons_cons]

/-- What is wrong with a text, once the equals signs at its end are off. -/
inductive Misspelled (text : List Char) : Prop
  /-- A character that is no symbol. -/
  | foreign (c : Char) (mem : c ∈ text) (outside : c ∉ alphabet) (plain : c ≠ '=')
  /-- An equals sign in front of something else. -/
  | padded (mem : '=' ∈ text)
  /-- A last symbol that is alone. -/
  | alone (length : text.length % 4 = 1)
  /-- A bit of the last symbol that is set and belongs to no octet. -/
  | unused (c : Char) (last : text.getLast? = some c)
      (bits : alphabet.idxOf c % 2 ^ unusedBits text.length ≠ 0)

theorem symbol_mem_alphabet (s : Sextet) : symbol s ∈ alphabet := mem_alphabet.mpr ⟨s, rfl⟩

/-- A text of symbols is misspelled if its groups of six bits are no octets. -/
theorem misspelled_symbols {groups : List Sextet} :
    Misspelled (groups.map symbol) ↔ octets? groups = none := by
  rw [octets?_eq_none]
  constructor
  · rintro (⟨c, hmem, houtside, _⟩ | hmem | hlength | ⟨c, hlast, hbits⟩)
    · obtain ⟨s, _, rfl⟩ := List.mem_map.mp hmem
      exact absurd (symbol_mem_alphabet s) houtside
    · obtain ⟨s, _, hs⟩ := List.mem_map.mp hmem
      exact absurd hs (symbol_plain s).1
    · exact Or.inl (by simpa using hlength)
    · rw [List.getLast?_map, Option.map_eq_some_iff] at hlast
      obtain ⟨s, hs, rfl⟩ := hlast
      rw [idxOf_symbol, List.length_map] at hbits
      exact Or.inr ⟨s, hs, hbits⟩
  · rintro (hlength | ⟨s, hs, hbits⟩)
    · exact .alone (by simpa using hlength)
    · refine .unused (symbol s) (by rw [List.getLast?_map, hs, Option.map_some]) ?_
      rwa [idxOf_symbol, List.length_map]

theorem decodeExact?_eq_none {text : List Char} : decodeExact? text = none ↔ Misspelled text := by
  rw [decodeExact?, Option.bind_eq_bind]
  cases hgroups : text.mapM ofSymbol? with
  | none =>
    obtain ⟨c, hmem, houtside⟩ := mapM_ofSymbol?_eq_none.mp hgroups
    simp only [Option.bind_none, true_iff]
    by_cases hequals : c = '='
    · exact .padded (hequals ▸ hmem)
    · exact .foreign c hmem houtside hequals
  | some groups =>
    rw [Option.bind_some, ← mapM_ofSymbol?_eq_some.mp hgroups, misspelled_symbols]

/-- **A text is refused just for one of four faults.** -/
theorem decode?_eq_none {text : List Char} :
    decode? text = none ↔ Misspelled (Text.trimEnd (· == '=') text) := decodeExact?_eq_none

/-! ## Bits -/

/-- The lowest bits of a number, the highest of them first. -/
def bits : (width : Nat) → Nat → List Bool
  | 0, _ => []
  | width + 1, n => n.testBit width :: bits width n

theorem bits_add (front back n : Nat) :
    bits (front + back) n = bits front (n / 2 ^ back) ++ bits back n := by
  induction front with
  | zero => rw [Nat.zero_add, bits, List.nil_append]
  | succ front ih =>
    rw [Nat.succ_add, bits, bits, ih, Nat.testBit_div_two_pow, List.cons_append, Nat.add_comm]

theorem bits_mod (width n : Nat) : bits width (n % 2 ^ width) = bits width n := by
  induction width generalizing n with
  | zero => rfl
  | succ width ih =>
    have hdvd : 2 ^ width ∣ 2 ^ (width + 1) := Nat.pow_dvd_pow 2 (Nat.le_succ width)
    rw [bits, bits, Nat.testBit_mod_two_pow, decide_eq_true (Nat.lt_succ_self width), Bool.true_and,
      ← ih (n % 2 ^ (width + 1)), Nat.mod_mod_of_dvd n hdvd, ih]

/-- Two runs of bits put together to one number. -/
theorem bits_join (front : Nat) {back : Nat} (n : Nat) {m : Nat} (h : m < 2 ^ back) :
    bits (front + back) (n % 2 ^ front * 2 ^ back + m) = bits front n ++ bits back m := by
  rw [bits_add, Nat.mul_comm, Nat.mul_add_div (Nat.two_pow_pos back), Nat.div_eq_of_lt h, Nat.add_zero,
    bits_mod, ← bits_mod back, Nat.mul_add_mod, Nat.mod_eq_of_lt h]

theorem bits_zero (width : Nat) : bits width 0 = List.replicate width false := by
  induction width with
  | zero => rfl
  | succ width ih => rw [bits, ih, Nat.zero_testBit, List.replicate_succ]

/-! An octet is cut after six bits, after four or after two, and six bits are made of the end of one octet
and the start of the next. -/

theorem bits_cut_six (a : UInt8) : bits 8 a.toNat = bits 6 (a.toNat / 4) ++ bits 2 a.toNat :=
  bits_add 6 2 a.toNat

theorem bits_cut_four (b : UInt8) : bits 8 b.toNat = bits 4 (b.toNat / 16) ++ bits 4 b.toNat :=
  bits_add 4 4 b.toNat

theorem bits_across (a b : UInt8) :
    bits 6 (a.toNat % 4 * 16 + b.toNat / 16) = bits 2 a.toNat ++ bits 4 (b.toNat / 16) := by
  have hb := b.toNat_lt
  exact bits_join 2 a.toNat (show b.toNat / 16 < 2 ^ 4 by omega)

/-- The bits of the groups are those of the octets, and behind them zeros for the bits that are unused. -/
theorem bits_sextets (bytes : Bytes) :
    (sextets bytes).flatMap (fun s => bits 6 s.val)
      = bytes.flatMap (fun b => bits 8 b.toNat)
        ++ List.replicate (unusedBits (sextets bytes).length) false := by
  fun_induction sextets bytes with
  | case1 => rfl
  | case2 a =>
    have ha := a.toNat_lt
    have hlast : bits 6 (a.toNat % 4 * 16) = bits 2 a.toNat ++ bits 4 0 :=
      bits_join 2 a.toNat (Nat.two_pow_pos 4)
    simp only [List.flatMap_cons, List.flatMap_nil, val_ofNat (show a.toNat / 4 < 64 by omega),
      val_ofNat (show a.toNat % 4 * 16 < 64 by omega), bits_cut_six, hlast, bits_zero, List.append_nil,
      List.append_assoc]
    rfl
  | case3 a b =>
    have ha := a.toNat_lt
    have hb := b.toNat_lt
    have hlast : bits 6 (b.toNat % 16 * 4) = bits 4 b.toNat ++ bits 2 0 :=
      bits_join 4 b.toNat (Nat.two_pow_pos 2)
    simp only [List.flatMap_cons, List.flatMap_nil, val_ofNat (show a.toNat / 4 < 64 by omega),
      val_ofNat (show a.toNat % 4 * 16 + b.toNat / 16 < 64 by omega),
      val_ofNat (show b.toNat % 16 * 4 < 64 by omega), bits_cut_six a, bits_cut_four b, bits_across, hlast,
      bits_zero, List.append_nil, List.append_assoc]
    rfl
  | case4 a b c rest ih =>
    have ha := a.toNat_lt
    have hb := b.toNat_lt
    have hc := c.toNat_lt
    have hthird : bits 8 c.toNat = bits 2 (c.toNat / 64) ++ bits 6 c.toNat := bits_add 2 6 c.toNat
    have hnext : bits 6 (b.toNat % 16 * 4 + c.toNat / 64) = bits 4 b.toNat ++ bits 2 (c.toNat / 64) :=
      bits_join 4 b.toNat (show c.toNat / 64 < 2 ^ 2 by omega)
    have hlast : bits 6 (c.toNat % 64) = bits 6 c.toNat := bits_mod 6 c.toNat
    simp only [List.flatMap_cons, List.length_cons, unusedBits_add_four, ih,
      val_ofNat (show a.toNat / 4 < 64 by omega),
      val_ofNat (show a.toNat % 4 * 16 + b.toNat / 16 < 64 by omega),
      val_ofNat (show b.toNat % 16 * 4 + c.toNat / 64 < 64 by omega),
      val_ofNat (show c.toNat % 64 < 64 by omega), bits_cut_six a, bits_cut_four b, hthird, bits_across,
      hnext, hlast, List.append_assoc]

/-- **The text of octets writes their bits**, six to a symbol, the last symbol filled up with zeros. -/
theorem bits_encode (bytes : Bytes) :
    (encode bytes).flatMap (fun c => bits 6 (alphabet.idxOf c))
      = bytes.flatMap (fun b => bits 8 b.toNat)
        ++ List.replicate (unusedBits (encode bytes).length) false := by
  simp only [encode, List.flatMap_map, idxOf_symbol, List.length_map, bits_sextets]

theorem encode_ne_nil {bytes : Bytes} (h : bytes ≠ []) : encode bytes ≠ [] := by
  intro heq
  have hread := decode?_encode bytes
  rw [heq] at hread
  exact h (Option.some.inj hread).symm

end Base64Url

end AuditTrail
