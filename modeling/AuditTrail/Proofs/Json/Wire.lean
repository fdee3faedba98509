import AuditTrail.Proofs.Json.Canonical

/-!
# Wire text reads back

What is sent is what is received: reading the wire text of a value gives the value, number for number
(`read?_wire`). Members are written in the order they are kept in, so nothing has to be put back in
order, and a double is never written in a form that could be taken for an integer
(`number?_wireNumeral`).
-/

namespace AuditTrail.Json

/-! ## Numbers -/

theorem written_wireNumeral (n : Json.Number) : (wireNumeral n).Written := by
  cases n with
  | int i => exact Number.Numeral.written_ofInt i
  | double d =>
    rw [wireNumeral, doubleNumeral]
    rcases eq_zero_or_pos d with h | h
    · rw [if_pos h]
      exact ⟨Or.inl rfl, fun ds hds => Number.fractionOf_ne_nil .wire [] ds hds,
        fun _ he => by simp at he⟩
    · obtain ⟨digit, rest, hdigits, hdigit⟩ := Number.shortest_front .toEven h
      rw [if_neg (by simp [Number.Double.isZero, h.ne'])]
      exact Number.Layout.written_numeral hdigits hdigit

/-- A layout that keeps the point never writes an integer. -/
theorem isWhole_numeral {layout : Number.Layout} (hpoint : layout.keepPoint = true)
    (negative : Bool) (s : Number.Scientific) : (layout.numeral negative s).isWhole = false := by
  unfold Number.Layout.numeral
  split
  · unfold Number.Layout.positional
    dsimp only
    split
    · rfl
    · unfold Number.Layout.fractionOf
      cases s.digits.drop (s.exponent + 1).toNat with
      | nil => simp [Number.Numeral.isWhole, hpoint]
      | cons d rest => rfl
  · simp [Number.exponential, Number.Numeral.isWhole]

theorem number?_wireInteger {i : Int} (h : WellFormed (.number (.int i))) :
    Tree.number? (.ofInt i) = some (.int i) := by
  have hrange : intInRange i = true := h
  have hcoefficient : (Number.Numeral.ofInt i).coefficient = i.natAbs := by
    simp [Number.Numeral.coefficient, Number.Numeral.digits, Number.Numeral.ofInt,
      Number.valueOf_digitsOf]
  have hvalue : (if (Number.Numeral.ofInt i).negative = true
      then -((Number.Numeral.ofInt i).coefficient : Int)
      else (Number.Numeral.ofInt i).coefficient) = i := by
    rw [hcoefficient, Number.Numeral.ofInt]
    by_cases hsign : i < 0
    · simp only [hsign, decide_true, if_true]
      omega
    · simp only [hsign, decide_false, Bool.false_eq_true, if_false]
      omega
  -- The one integer that is read as a double is a zero with a sign, which no integer writes.
  have hzero : ((Number.Numeral.ofInt i).negative && (Number.Numeral.ofInt i).coefficient == 0)
      = false := by
    rw [hcoefficient, Number.Numeral.ofInt]
    by_cases hsign : i < 0
    · simp [hsign.ne]
    · simp [hsign]
  unfold Tree.number?
  dsimp only
  rw [hvalue, hzero, hrange]
  rfl

theorem number?_wireDouble (d : Number.Double) :
    Tree.number? (doubleNumeral .wire .toEven d) = some (.double d) := by
  unfold doubleNumeral
  rcases eq_zero_or_pos d with hzero | hpos
  · have hordinal : d.ordinal = 0 := by simpa [Number.Double.isZero] using hzero
    obtain ⟨negative, ordinal, hbound⟩ := d
    subst hordinal
    rw [if_pos hzero]
    rfl
  · rw [if_neg (by simp [Number.Double.isZero, hpos.ne'])]
    have hholds := holds_numeral .wire .toEven hpos
    have hwhole := isWhole_numeral (show Number.Layout.wire.keepPoint = true from rfl) d.negative
      (Number.shortest .toEven d.ordinal)
    have hnegative := Number.Layout.negative_numeral .wire d.negative
      (Number.shortest .toEven d.ordinal)
    generalize Number.Layout.numeral .wire d.negative (Number.shortest .toEven d.ordinal) = n
      at hholds hwhole hnegative
    unfold Tree.number?
    dsimp only
    rw [hwhole, Bool.false_and, Bool.false_and, if_neg Bool.false_ne_true, hnegative,
      Number.ofDecimal?_eq d.negative hpos d.ordinal_lt hholds]
    rfl

theorem number?_wireNumeral {n : Json.Number} (h : WellFormed (.number n)) :
    Tree.number? (wireNumeral n) = some n := by
  cases n with
  | int i => exact number?_wireInteger h
  | double d => exact number?_wireDouble d

/-! ## Values -/

theorem wireItems_eq (items : List Json) : wireItems items = items.map wireTree := by
  induction items with
  | nil => rfl
  | cons v rest ih => rw [wireItems, ih, List.map_cons]

theorem wireMembers_eq (members : List (String × Json)) :
    wireMembers members = members.map fun m => (some m.1, m.2.wireTree) := by
  induction members with
  | nil => rfl
  | cons m rest ih => rw [wireMembers, ih, List.map_cons]

theorem writable_wireTree (v : Json) : v.wireTree.Writable := by
  induction v with
  | null => trivial
  | bool b => trivial
  | number n => exact written_wireNumeral n
  | string s => rfl
  | array items ih =>
    rw [wireTree, wireItems_eq]
    refine (Tree.writableItems_iff _).mpr ?_
    intro t ht
    obtain ⟨v, hv, rfl⟩ := List.mem_map.mp ht
    exact ih v hv
  | object members ih =>
    rw [wireTree, wireMembers_eq]
    refine (Tree.writableMembers_iff _).mpr ?_
    intro e he
    obtain ⟨m, hm, rfl⟩ := List.mem_map.mp he
    exact ⟨rfl, ih m hm⟩

/-- The value of a wire tree is the value it was made from. -/
theorem value?_wireTree {v : Json} {room : Nat} (h : v.WellFormed) (hdepth : v.depth ≤ room) :
    v.wireTree.value? room = some v := by
  induction v generalizing room with
  | null => rfl
  | bool b => rfl
  | number n =>
    rw [wireTree, Tree.value?, number?_wireNumeral h]
    rfl
  | string s => rfl
  | array items ih =>
    obtain ⟨inner, rfl⟩ : ∃ inner, room = inner + 1 := Nat.exists_eq_add_of_le' (by
      rw [depth] at hdepth; omega)
    have hitems : ∀ v ∈ items, v.wireTree.value? inner = some v := fun v hv =>
      ih v hv (wellFormed_array.mp h v hv) (depth_array.mp hdepth v hv)
    rw [wireTree, wireItems_eq, Tree.value?, Tree.valueItems?_map hitems, List.map_id']
    rfl
  | object members ih =>
    obtain ⟨inner, rfl⟩ : ∃ inner, room = inner + 1 := Nat.exists_eq_add_of_le' (by
      rw [depth] at hdepth; omega)
    obtain ⟨hsorted, hwell⟩ := wellFormed_object.mp h
    have hmembers : ∀ m ∈ members, m.2.wireTree.value? inner = some m.2 := fun m hm =>
      ih m hm (hwell m hm) (depth_object.mp hdepth m hm)
    rw [wireTree, wireMembers_eq, Tree.value?, Tree.valueMembers?_map Prod.fst hmembers,
      Option.map_some, ofMembers]
    exact congrArg (some ∘ Json.object)
      (ByName.ofList_of_perm hsorted (by rw [List.map_id']))

theorem read?_chars_wire (v : Json) : Tree.read? v.wire = some v.wireTree :=
  Tree.read?_chars (writable_wireTree v)

/-- **Wire text reads back.** -/
theorem read?_wire {v : Json} (h : v.WellFormed) (hdepth : v.depth ≤ Tree.maxDepth) :
    Json.read? v.wire = some v := by
  unfold Json.read?
  rw [read?_chars_wire, Option.bind_eq_bind, Option.bind_some]
  exact value?_wireTree h hdepth

end AuditTrail.Json
