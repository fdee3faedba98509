import AuditTrail.Proofs.Json.Wire
import AuditTrail.Proofs.Replay.Constructor
import AuditTrail.Proofs.Replay.Scalars

/-!
# Types given back to texts

A value keeps its shape when the texts in it are given their types back: nothing but its leaves changes, and of
these only texts (`Restored`). A text becomes the integer it writes, else the double it writes, else a truth
value, else it stays (`StandsFor`). What has come out is no text that writes anything, so a second time nothing
happens.

In the other direction, a value may have been made into texts leaf by leaf (`stringified`).

> The text of a truth value is read as that truth value, and the text of an integer as that integer, as long as
> it fits into 64 bits with its sign; beyond that, where a JSON number still can be an integer, it is read as the
> nearest double (`types_regained`).
-/

namespace AuditTrail

open Number (Double Nearest Numeral unitsInOne)

namespace Json

/-! ## Leaves -/

mutual

/-- What a value consists of besides arrays and objects, from left to right. -/
def leaves : Json → List Json
  | .array items => leavesOfItems items
  | .object members => leavesOfMembers members
  | .null => [.null]
  | .bool b => [.bool b]
  | .number n => [.number n]
  | .string s => [.string s]
termination_by structural v => v

/-- The leaves of items. -/
def leavesOfItems : List Json → List Json
  | [] => []
  | v :: rest => leaves v ++ leavesOfItems rest
termination_by structural v => v

/-- The leaves of the values of members. -/
def leavesOfMembers : List (String × Json) → List Json
  | [] => []
  | (_, v) :: rest => leaves v ++ leavesOfMembers rest
termination_by structural v => v

end

mutual

/-- A value with the texts of its truth values and integers in place of them. -/
def stringified : Json → Json
  | .bool b => .string (wire (.bool b))
  | .number (.int i) => .string (wire (.number (.int i)))
  | .number (.double d) => .number (.double d)
  | .null => .null
  | .string s => .string s
  | .array items => .array (stringifiedItems items)
  | .object members => .object (stringifiedMembers members)
termination_by structural v => v

/-- `stringified` for items. -/
def stringifiedItems : List Json → List Json
  | [] => []
  | v :: rest => stringified v :: stringifiedItems rest
termination_by structural v => v

/-- `stringified` for the values of members. -/
def stringifiedMembers : List (String × Json) → List (String × Json)
  | [] => []
  | (name, v) :: rest => (name, stringified v) :: stringifiedMembers rest
termination_by structural v => v

end

theorem leavesOfItems_eq (items : List Json) : leavesOfItems items = items.flatMap leaves := by
  induction items with
  | nil => rfl
  | cons v rest ih => rw [leavesOfItems, ih, List.flatMap_cons]

theorem leavesOfMembers_eq (members : List (String × Json)) :
    leavesOfMembers members = members.flatMap fun m => m.2.leaves := by
  induction members with
  | nil => rfl
  | cons m rest ih => rw [leavesOfMembers, ih, List.flatMap_cons]

theorem mem_leaves_array {leaf : Json} {items : List Json} :
    leaf ∈ leaves (.array items) ↔ ∃ v ∈ items, leaf ∈ v.leaves := by
  rw [leaves, leavesOfItems_eq, List.mem_flatMap]

theorem mem_leaves_object {leaf : Json} {members : List (String × Json)} :
    leaf ∈ leaves (.object members) ↔ ∃ m ∈ members, leaf ∈ m.2.leaves := by
  rw [leaves, leavesOfMembers_eq, List.mem_flatMap]

theorem stringifiedItems_eq (items : List Json) : stringifiedItems items = items.map stringified := by
  induction items with
  | nil => rfl
  | cons v rest ih => rw [stringifiedItems, ih, List.map_cons]

theorem stringifiedMembers_eq (members : List (String × Json)) :
    stringifiedMembers members = members.map fun m => (m.1, m.2.stringified) := by
  induction members with
  | nil => rfl
  | cons m rest ih => rw [stringifiedMembers, ih, List.map_cons]

theorem map_eq_self {α : Type} {f : α → α} {as : List α} : as.map f = as ↔ ∀ a ∈ as, f a = a := by
  simpa using List.map_inj_left (l := as) (f := f) (g := id)

/-- A value that has no number to be replaced stays. -/
theorem mapNumbers_eq_self {f : Json.Number → Json.Number} {v : Json} :
    v.mapNumbers f = v ↔ ∀ n, .number n ∈ v.leaves → f n = n := by
  induction v with
  | null => simp [mapNumbers, leaves]
  | bool b => simp [mapNumbers, leaves]
  | number n => simp [mapNumbers, leaves]
  | string s => simp [mapNumbers, leaves]
  | array items ih =>
    rw [mapNumbers_array, Json.array.injEq, map_eq_self]
    simp only [mem_leaves_array]
    constructor
    · rintro hself n ⟨v, hv, hn⟩
      exact (ih v hv).mp (hself v hv) n hn
    · intro hself v hv
      exact (ih v hv).mpr fun n hn => hself n ⟨v, hv, hn⟩
  | object members ih =>
    rw [mapNumbers_object, Json.object.injEq, map_eq_self]
    simp only [mem_leaves_object]
    constructor
    · rintro hself n ⟨m, hm, hn⟩
      exact (ih m hm).mp (congrArg Prod.snd (hself m hm)) n hn
    · intro hself m hm
      exact congrArg (Prod.mk m.1) ((ih m hm).mpr fun n hn => hself n ⟨m, hm, hn⟩)

end Json

namespace Replay

/-! ## What texts become -/

/-- What a text stands for. -/
inductive StandsFor : String → Json → Prop
  | integer {s : String} {i : Int} (h : WritesInteger i s.toList) : StandsFor s (.number (.int i))
  | double {s : String} {d : Double} (hinteger : ∀ i, ¬ WritesInteger i s.toList)
      (h : WritesDouble d s.toList) : StandsFor s (.number (.double d))
  | true : StandsFor "true" (.bool true)
  | false : StandsFor "false" (.bool false)
  | text {s : String} (hinteger : ∀ i, ¬ WritesInteger i s.toList) (hdouble : ∀ d, ¬ WritesDouble d s.toList)
      (htrue : s ≠ "true") (hfalse : s ≠ "false") : StandsFor s (.string s)

mutual

/-- A value in which the texts have become what they stand for, and nothing else has changed. -/
inductive Restored : Json → Json → Prop
  | null : Restored .null .null
  | bool (b : Bool) : Restored (.bool b) (.bool b)
  | number (n : Json.Number) : Restored (.number n) (.number n)
  | string {s : String} {v : Json} (h : StandsFor s v) : Restored (.string s) v
  | array {items items' : List Json} (h : List.Forall₂ Restored items items') :
      Restored (.array items) (.array items')
  | object {members members' : List (String × Json)} (h : List.Forall₂ RestoredMember members members') :
      Restored (.object members) (.object members')

/-- A member whose name has stayed. -/
inductive RestoredMember : String × Json → String × Json → Prop
  | value {name : String} {v v' : Json} (h : Restored v v') : RestoredMember (name, v) (name, v')

end

theorem integer?_eq_none {text : List Char} : integer? text = none ↔ ∀ i, ¬ WritesInteger i text := by
  simp only [Option.eq_none_iff_forall_ne_some, ne_eq, integer?_eq_some]

theorem double?_eq_none {text : List Char} : double? text = none ↔ ∀ d, ¬ WritesDouble d text := by
  simp only [Option.eq_none_iff_forall_ne_some, ne_eq, double?_eq_some]

theorem normalizedText_true : normalizedText "true" = .bool true := rfl

theorem normalizedText_false : normalizedText "false" = .bool false := rfl

theorem standsFor_iff {s : String} {v : Json} : StandsFor s v ↔ v = normalizedText s := by
  constructor
  · intro h
    cases h with
    | integer h => rw [normalizedText, integer?_eq_some.mpr h]
    | double hinteger h => rw [normalizedText, integer?_eq_none.mpr hinteger, double?_eq_some.mpr h]
    | true => exact normalizedText_true.symm
    | false => exact normalizedText_false.symm
    | text hinteger hdouble htrue hfalse =>
      rw [normalizedText, integer?_eq_none.mpr hinteger, double?_eq_none.mpr hdouble]
      dsimp only
      rw [if_neg htrue, if_neg hfalse]
  · rintro rfl
    unfold normalizedText
    split
    · rename_i i hinteger
      exact .integer (integer?_eq_some.mp hinteger)
    · rename_i hinteger
      rw [integer?_eq_none] at hinteger
      split
      · rename_i d hdouble
        exact .double hinteger (double?_eq_some.mp hdouble)
      · rename_i hdouble
        split
        · rename_i htrue
          exact htrue ▸ .true
        · split
          · rename_i hfalse
            exact hfalse ▸ .false
          · rename_i htrue hfalse
            exact .text hinteger (double?_eq_none.mp hdouble) htrue hfalse

/-! ## Values -/

theorem normalizedItems_eq (items : List Json) : normalizedItems items = items.map normalized := by
  induction items with
  | nil => rfl
  | cons v rest ih => rw [normalizedItems, ih, List.map_cons]

theorem normalized_array (items : List Json) : normalized (.array items) = .array (items.map normalized) := by
  rw [normalized, normalizedItems_eq]

theorem normalized_object (members : List (String × Json)) :
    normalized (.object members) = .object (members.map fun m => (m.1, normalized m.2)) := by
  rw [normalized, normalizedMembers_eq]

/-- **The restored value is the one that is computed.** -/
theorem restored_iff {v w : Json} : Restored v w ↔ w = normalized v := by
  induction v generalizing w with
  | null => exact ⟨fun h => by cases h; rfl, fun h => h ▸ .null⟩
  | bool b => exact ⟨fun h => by cases h; rfl, fun h => h ▸ .bool b⟩
  | number n => exact ⟨fun h => by cases h; rfl, fun h => h ▸ .number n⟩
  | string s =>
    rw [normalized, ← standsFor_iff]
    exact ⟨fun h => by cases h; assumption, .string⟩
  | array items ih =>
    rw [normalized_array]
    constructor
    · intro h
      cases h with
      | array h =>
        rw [eq_map_of_forall₂ h fun v hv w hw => ((ih v hv).mp hw).symm]
    · rintro rfl
      refine .array (List.forall₂_map_right_iff.mpr (List.forall₂_same.mpr ?_))
      intro v hv
      exact (ih v hv).mpr rfl
  | object members ih =>
    rw [normalized_object]
    constructor
    · intro h
      cases h with
      | object h =>
        rw [eq_map_of_forall₂ h]
        rintro ⟨name, v⟩ hm _ ⟨hv⟩
        rw [(ih (name, v) hm).mp hv]
    · rintro rfl
      refine .object (List.forall₂_map_right_iff.mpr (List.forall₂_same.mpr ?_))
      rintro ⟨name, v⟩ hm
      exact .value ((ih (name, v) hm).mpr rfl)

/-- What a text has become is left as it is. -/
theorem normalized_normalizedText (s : String) : normalized (normalizedText s) = normalizedText s := by
  have h := standsFor_iff.mpr (rfl : normalizedText s = normalizedText s)
  generalize hv : normalizedText s = v at h
  cases h with
  | text => exact hv
  | _ => rfl

theorem normalized_normalized (v : Json) : normalized (normalized v) = normalized v := by
  induction v with
  | null => rfl
  | bool b => rfl
  | number n => rfl
  | string s => exact normalized_normalizedText s
  | array items ih =>
    rw [normalized_array, normalized_array, List.map_map]
    congr 1
    exact List.map_congr_left ih
  | object members ih =>
    rw [normalized_object, normalized_object, List.map_map]
    congr 1
    refine List.map_congr_left fun m hm => ?_
    exact congrArg (Prod.mk m.1) (ih m hm)

/-- **Types are restored once.** Restoring keeps the shape of a value and of all its leaves but the texts; a text
is kept just if it writes neither an integer nor a double and is not the word for a truth value; and of a value,
or of parameters, that have been restored nothing changes any more. -/
theorem types_restored (v : Json) (parameters : Json.Members) (s : String) :
    (∀ w, Restored v w ↔ w = normalized v)
      ∧ normalized (normalized v) = normalized v
      ∧ Restored (.object parameters) (.object (normalizedMembers parameters))
      ∧ normalizedMembers (normalizedMembers parameters) = normalizedMembers parameters
      ∧ (normalized (.string s) = .string s ↔ s ≠ "true" ∧ s ≠ "false" ∧ (∀ i, ¬ WritesInteger i s.toList)
        ∧ ∀ d, ¬ WritesDouble d s.toList) := by
  refine ⟨fun w => restored_iff, normalized_normalized v, restored_iff.mpr rfl, ?_, ?_⟩
  · exact Json.object.inj (normalized_normalized (.object parameters))
  · have hself : normalized (.string s) = .string s ↔ StandsFor s (.string s) := by
      rw [standsFor_iff, normalized, eq_comm]
    rw [hself]
    constructor
    · intro h
      cases h with
      | text hinteger hdouble htrue hfalse => exact ⟨htrue, hfalse, hinteger, hdouble⟩
    · rintro ⟨htrue, hfalse, hinteger, hdouble⟩
      exact .text hinteger hdouble htrue hfalse

example : normalized (.array [.string "inf", .string "NaN", .string "1e999", .string "+07"])
    = .array [.string "inf", .string "NaN", .string "1e999", .number (.int 7)] := by rfl

/-! ## Texts in place of values -/

/-- What is read of the text of a number. Beyond 64 bits with a sign it is the nearest double. -/
def throughText : Json.Number → Json.Number
  | .int i =>
    if i ≤ 9223372036854775807 then .int i
    else
      match Double.ofInt? i with
      | some d => .double d
      | none => .int i
  | .double d => .double d

/-- A value that consists of nulls, truth values and integers. -/
def Typed (v : Json) : Prop := ∀ leaf ∈ v.leaves, leaf = .null ∨ (∃ b, leaf = .bool b)
  ∨ ∃ i, leaf = .number (.int i) ∧ Json.intInRange i = true

section

variable {i : Int}

theorem toList_wire_integer (i : Int) : (Json.wire (.number (.int i))).toList = (Numeral.ofInt i).chars :=
  String.toList_ofList

theorem coefficient_ofInt (i : Int) : (Numeral.ofInt i).coefficient = i.natAbs := by
  simp [Numeral.coefficient, Numeral.digits, Numeral.ofInt]

theorem looselySpells_ofInt (i : Int) : (Numeral.ofInt i).LooselySpells (Numeral.ofInt i).chars := by
  refine ⟨?_, by simp [Numeral.ofInt], if (Numeral.ofInt i).negative then ['-'] else [], 'e', ?_, Or.inl rfl,
    Numeral.chars_eq _⟩
  · simpa [Numeral.digits, Numeral.ofInt] using Number.digitsOf_ne_nil i.natAbs
  · cases (Numeral.ofInt i).negative with
    | true => exact .minus
    | false => exact .none

theorem signedDigits?_ofInt (i : Int) :
    signedDigits? (Numeral.ofInt i).chars = some (decide (i < 0), Number.digitsOf i.natAbs) := by
  obtain ⟨_, _, sign, mark, hsign, _, htext⟩ := looselySpells_ofInt i
  refine signedDigits?_eq_some.mpr ⟨Number.digitsOf_ne_nil _, sign, hsign, htext.trans ?_⟩
  simp [Numeral.ofInt, Numeral.fractionChars, Numeral.markedExponent]

theorem signed_natAbs (i : Int) : signed (decide (i < 0)) i.natAbs = i := by
  unfold signed
  by_cases h : i < 0
  · rw [if_pos (decide_eq_true h)]
    omega
  · rw [if_neg (by simpa using h)]
    omega

theorem integer?_ofInt (i : Int) : integer? (Numeral.ofInt i).chars
    = if -9223372036854775808 ≤ i ∧ i ≤ 9223372036854775807 then some i else none := by
  rw [integer?_eq, signedDigits?_ofInt, Option.bind_some]
  dsimp only
  rw [Number.valueOf_digitsOf, signed_natAbs]

theorem double?_ofInt {d : Double} (h : Double.ofInt? i = some d) : double? (Numeral.ofInt i).chars = some d := by
  obtain ⟨hnegative, hnearest⟩ := Number.ofDecimal?_eq_some.mp h
  refine double?_eq_some.mpr ⟨_, looselySpells_ofInt i, hnegative, ?_⟩
  rwa [Numeral.magnitude, coefficient_ofInt, Number.Numeral.scale_of_isWhole rfl]

/-- **The text of an integer is read as this integer**, or as the double nearest to it. -/
theorem normalizedText_integer (h : Json.intInRange i = true) :
    normalizedText (Json.wire (.number (.int i))) = .number (throughText (.int i)) := by
  have hrange : -9223372036854775808 ≤ i ∧ i ≤ 18446744073709551615 := of_decide_eq_true h
  rw [normalizedText, toList_wire_integer, integer?_ofInt, throughText]
  by_cases hsigned : i ≤ 9223372036854775807
  · rw [if_pos ⟨hrange.1, hsigned⟩, if_pos hsigned]
  · obtain ⟨d, hd⟩ := Number.ofInt?_isSome (show i.natAbs ≤ 2 ^ 64 by omega)
    rw [if_neg fun hboth => hsigned hboth.2, if_neg hsigned, double?_ofInt hd, hd]

theorem normalizedText_bool (b : Bool) : normalizedText (Json.wire (.bool b)) = .bool b := by
  cases b with
  | true => exact normalizedText_true
  | false => exact normalizedText_false

end

theorem Typed.item {items : List Json} (h : Typed (.array items)) {v : Json} (hv : v ∈ items) : Typed v :=
  fun leaf hleaf => h leaf (Json.mem_leaves_array.mpr ⟨v, hv, hleaf⟩)

theorem Typed.member {members : List (String × Json)} (h : Typed (.object members)) {m : String × Json}
    (hm : m ∈ members) : Typed m.2 :=
  fun leaf hleaf => h leaf (Json.mem_leaves_object.mpr ⟨m, hm, hleaf⟩)

theorem normalized_stringified {v : Json} (h : Typed v) :
    normalized v.stringified = v.mapNumbers throughText := by
  induction v with
  | null => rfl
  | bool b => exact normalizedText_bool b
  | number n =>
    rcases h _ (List.mem_singleton_self _) with hnull | ⟨b, hbool⟩ | ⟨i, hinteger, hrange⟩
    · exact absurd hnull (by simp)
    · exact absurd hbool (by simp)
    · cases hinteger
      rw [Json.stringified, normalized, normalizedText_integer hrange, Json.mapNumbers]
  | string s => rcases h _ (List.mem_singleton_self _) with htext | ⟨b, htext⟩ | ⟨i, htext, _⟩ <;> cases htext
  | array items ih =>
    rw [Json.stringified, Json.stringifiedItems_eq, normalized_array, Json.mapNumbers_array, List.map_map]
    congr 1
    exact List.map_congr_left fun v hv => ih v hv (h.item hv)
  | object members ih =>
    rw [Json.stringified, Json.stringifiedMembers_eq, normalized_object, Json.mapNumbers_object, List.map_map]
    congr 1
    refine List.map_congr_left fun m hm => ?_
    exact congrArg (Prod.mk m.1) (ih m hm (h.member hm))

/-- The greatest integers are doubles after they have been texts. -/
theorem throughText_of_lt {i : Int} (h : Json.intInRange i = true) (hlarge : 9223372036854775807 < i) :
    ∃ d, throughText (.int i) = .double d ∧ d.negative = false ∧ Nearest d.ordinal (i * unitsInOne) := by
  have hrange : -9223372036854775808 ≤ i ∧ i ≤ 18446744073709551615 := of_decide_eq_true h
  obtain ⟨d, hd⟩ := Number.ofInt?_isSome (show i.natAbs ≤ 2 ^ 64 by omega)
  obtain ⟨hnegative, hnearest⟩ := Number.ofDecimal?_eq_some.mp hd
  refine ⟨d, ?_, hnegative.trans (decide_eq_false (by omega)), ?_⟩
  · rw [throughText, if_neg (by omega), hd]
  · have hcast : ((i.natAbs : ℕ) : ℚ) = i := by
      rw [← Int.cast_natCast, Int.natAbs_of_nonneg (by omega)]
    rwa [zpow_zero, mul_one, hcast] at hnearest

theorem throughText_eq_self {i : Int} (h : Json.intInRange i = true) :
    throughText (.int i) = .int i ↔ i ≤ 9223372036854775807 := by
  constructor
  · intro hself
    by_contra hlarge
    obtain ⟨d, hdouble, _⟩ := throughText_of_lt h (not_le.mp hlarge)
    rw [hself] at hdouble
    exact absurd hdouble (by simp)
  · intro hsmall
    rw [throughText, if_pos hsmall]

theorem Typed.mapNumbers_eq_self {v : Json} (h : Typed v) :
    v.mapNumbers throughText = v ↔ ∀ i, .number (.int i) ∈ v.leaves → i ≤ 9223372036854775807 := by
  rw [Json.mapNumbers_eq_self]
  constructor
  · intro hself i hi
    rcases h _ hi with hnull | ⟨b, hbool⟩ | ⟨j, hinteger, hrange⟩
    · exact absurd hnull (by simp)
    · exact absurd hbool (by simp)
    · cases hinteger
      exact (throughText_eq_self hrange).mp (hself _ hi)
  · intro hsmall n hn
    rcases h _ hn with hnull | ⟨b, hbool⟩ | ⟨i, hinteger, hrange⟩
    · exact absurd hnull (by simp)
    · exact absurd hbool (by simp)
    · cases hinteger
      exact (throughText_eq_self hrange).mpr (hsmall i hn)

/-- **Types are regained from texts**, but for the integers that are too large for 64 bits with a sign. If a value
of nulls, truth values and integers has been made into texts, restoring the types gives the value back just if it
has none of these integers; each of them comes back as the double nearest to it, whatever else there is. -/
theorem types_regained (v : Json) (h : Typed v) :
    normalized v.stringified = v.mapNumbers throughText
      ∧ (normalized v.stringified = v ↔ ∀ i, .number (.int i) ∈ v.leaves → i ≤ 9223372036854775807)
      ∧ (∀ i, .number (.int i) ∈ v.leaves → 9223372036854775807 < i →
        ∃ d, throughText (.int i) = .double d ∧ d.negative = false ∧ Nearest d.ordinal (i * unitsInOne))
      ∧ ∀ parameters, v = .object parameters →
        (normalizedMembers (Json.stringifiedMembers parameters) = parameters
          ↔ ∀ i, .number (.int i) ∈ v.leaves → i ≤ 9223372036854775807) := by
  have hself : normalized v.stringified = v ↔ ∀ i, .number (.int i) ∈ v.leaves → i ≤ 9223372036854775807 := by
    rw [normalized_stringified h]
    exact h.mapNumbers_eq_self
  refine ⟨normalized_stringified h, hself, ?_, ?_⟩
  · intro i hi hlarge
    rcases h _ hi with hnull | ⟨b, hbool⟩ | ⟨j, hinteger, hrange⟩
    · exact absurd hnull (by simp)
    · exact absurd hbool (by simp)
    · cases hinteger
      exact throughText_of_lt hrange hlarge
  · rintro parameters rfl
    rw [← hself]
    exact ⟨congrArg Json.object, Json.object.inj⟩

/-- Parameters at the ends of both ranges. -/
def boundaryParameters : Json.Members :=
  [("flags", .array [.bool true, .null]), ("least", .number (.int (-9223372036854775808))),
    ("nested", .object [("greatest", .number (.int 9223372036854775807))])]

theorem types_regained_boundary :
    Typed (.object boundaryParameters)
      ∧ normalizedMembers (Json.stringifiedMembers boundaryParameters) = boundaryParameters
      ∧ ∃ d, throughText (.int 18446744073709551615) = .double d
        ∧ normalized (Json.array [.number (.int 18446744073709551615)]).stringified = .array [.number (.double d)] := by
  have htyped : Typed (.object boundaryParameters) := by
    simp [Typed, boundaryParameters, Json.leaves, Json.leavesOfMembers, Json.leavesOfItems, Json.intInRange]
  have hgreatest : Typed (.array [.number (.int 18446744073709551615)]) := by
    simp [Typed, Json.leaves, Json.leavesOfItems, Json.intInRange]
  refine ⟨htyped, ((types_regained _ htyped).2.2.2 _ rfl).mpr ?_, ?_⟩
  · simp [boundaryParameters, Json.leaves, Json.leavesOfMembers, Json.leavesOfItems]
  · obtain ⟨hvalue, _, hdouble, _⟩ := types_regained _ hgreatest
    obtain ⟨d, hd, _⟩ := hdouble 18446744073709551615 (by simp [Json.leaves, Json.leavesOfItems]) (by decide)
    refine ⟨d, hd, hvalue.trans ?_⟩
    rw [Json.mapNumbers_array, List.map_singleton, Json.mapNumbers, hd]

/-- The greatest integer of a JSON number is not regained from its text. -/
theorem greatest_integer_not_regained :
    Typed (.number (.int 18446744073709551615))
      ∧ normalized (Json.stringified (.number (.int 18446744073709551615))) ≠ .number (.int 18446744073709551615) := by
  have htyped : Typed (.number (.int 18446744073709551615)) := by simp [Typed, Json.leaves, Json.intInRange]
  refine ⟨htyped, ?_⟩
  rw [normalized_stringified htyped, ne_eq, htyped.mapNumbers_eq_self]
  simp [Json.leaves]

end Replay

end AuditTrail
