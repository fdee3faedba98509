import AuditTrail.Proofs.Text.Bytes
import AuditTrail.Text.Percent

/-!
# What percent escapes stand for

`Resolves` says without a reader what a text with percent escapes stands for. The one thing to watch is the
percent sign that no two hexadecimal digits follow. It stands for itself, and the characters after it are
looked at again, so they may start an escape of their own. A text of at least one character stands for at
least one octet, whatever its escapes, so nothing becomes empty by resolving them.
-/

namespace AuditTrail.Percent

variable {text : List Char} {octets : Bytes}

/-- Whether two hexadecimal digits are at the front of a text. -/
def DigitsFirst (text : List Char) : Prop :=
  ∃ high low rest h l, text = high :: low :: rest
    ∧ Bytes.hexValue? high = some h ∧ Bytes.hexValue? low = some l

/-- The octets that a text stands for. -/
inductive Resolves : List Char → Bytes → Prop
  | nil : Resolves [] []
  /-- A percent sign with two hexadecimal digits after it stands for the octet that they write. -/
  | escape {high low : Char} {h l : Nat} {rest : List Char} {octets : Bytes}
    (hhigh : Bytes.hexValue? high = some h) (hlow : Bytes.hexValue? low = some l)
    (hrest : Resolves rest octets) :
    Resolves ('%' :: high :: low :: rest) (UInt8.ofNat (16 * h + l) :: octets)
  /-- Any other character stands for itself. -/
  | plain {c : Char} {rest : List Char} {octets : Bytes} (hc : c = '%' → ¬ DigitsFirst rest)
    (hrest : Resolves rest octets) :
    Resolves (c :: rest) (Bytes.ofString (String.singleton c) ++ octets)

theorem octet?_eq_some {high low : Char} {octet : UInt8} : octet? high low = some octet
    ↔ ∃ h l, Bytes.hexValue? high = some h ∧ Bytes.hexValue? low = some l
      ∧ octet = UInt8.ofNat (16 * h + l) := by
  simp only [octet?, Option.bind_eq_bind, Option.bind_eq_some_iff, Option.some.injEq]
  constructor
  · rintro ⟨h, hhigh, l, hlow, rfl⟩
    exact ⟨h, l, hhigh, hlow, rfl⟩
  · rintro ⟨h, l, hhigh, hlow, rfl⟩
    exact ⟨h, hhigh, l, hlow, rfl⟩

theorem resolves_unescaped (text : List Char) : Resolves text (unescaped text) := by
  fun_induction unescaped text with
  | case1 high low rest octet hoctet ih =>
    obtain ⟨h, l, hhigh, hlow, rfl⟩ := octet?_eq_some.mp hoctet
    exact .escape hhigh hlow ih
  | case2 high low rest hnone ih =>
    refine .plain (fun _ => ?_) ih
    rintro ⟨_, _, _, h, l, ⟨rfl, rfl, rfl⟩, hhigh, hlow⟩
    rw [octet?_eq_some.mpr ⟨h, l, hhigh, hlow, rfl⟩] at hnone
    exact absurd hnone (by simp)
  | case3 c rest hshape ih =>
    refine .plain (fun hc => ?_) ih
    rintro ⟨high, low, more, _, _, rfl, _, _⟩
    exact hshape high low more hc rfl
  | case4 => exact .nil

/-- A character that starts no escape is left as it is. -/
theorem unescaped_plain {c : Char} {rest : List Char} (hc : c = '%' → ¬ DigitsFirst rest) :
    unescaped (c :: rest) = Bytes.ofString (String.singleton c) ++ unescaped rest := by
  by_cases hsign : c = '%'
  · subst hsign
    match rest with
    | [] => rfl
    | [_] => rfl
    | high :: low :: more =>
      have hnone : octet? high low = none := by
        refine Option.eq_none_iff_forall_ne_some.mpr fun octet hoctet => ?_
        obtain ⟨h, l, hhigh, hlow, _⟩ := octet?_eq_some.mp hoctet
        exact hc rfl ⟨high, low, more, h, l, rfl, hhigh, hlow⟩
      rw [unescaped, hnone]
      rfl
  · rw [unescaped]
    exact fun _ _ _ hc' => absurd hc' hsign

theorem Resolves.eq_unescaped (h : Resolves text octets) : octets = unescaped text := by
  induction h with
  | nil => rfl
  | escape hhigh hlow _ ih =>
    rw [unescaped, octet?_eq_some.mpr ⟨_, _, hhigh, hlow, rfl⟩, ih]
  | plain hc _ ih => rw [unescaped_plain hc, ih]

/-- **Escapes are resolved as they should be.** -/
theorem unescapedText?_eq_some {decoded : List Char} :
    unescapedText? text = some decoded ↔ Resolves text (Bytes.ofString (String.ofList decoded)) := by
  unfold unescapedText?
  rw [Option.map_eq_some_iff]
  constructor
  · rintro ⟨found, hfound, rfl⟩
    rw [String.ofList_toList, ← Bytes.toString?_eq_some.mp hfound]
    exact resolves_unescaped text
  · intro h
    exact ⟨String.ofList decoded, Bytes.toString?_eq_some.mpr h.eq_unescaped.symm, String.toList_ofList⟩

/-- What stands for no octets is empty. -/
theorem Resolves.eq_nil (h : Resolves text octets) (hnil : octets = []) : text = [] := by
  cases h with
  | nil => rfl
  | escape => exact absurd hnil (by simp)
  | plain =>
    obtain ⟨hsingle, _⟩ := List.append_eq_nil_iff.mp hnil
    exact absurd hsingle (Bytes.ofString_ne_nil (by simp))

end AuditTrail.Percent
