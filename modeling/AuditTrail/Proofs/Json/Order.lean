import AuditTrail.Proofs.Json.Canonical
import AuditTrail.Proofs.Text.Pieces

/-!
# The order of members in canonical text

A text is determined by its UTF-16 code units (`utf16_injective`), because the halves of a pair are no
code units of their own. So the names of an object, which are all different, can be put into strictly
increasing order in one way only, and

> the canonical text of a value is the one text that has the members of every object in this order
> (`arranged_iff`), with no white space outside the strings (`tight_canonical`).

The order is not the one that members are kept in: a pair begins with a code unit below some of the
characters that have a single one.
-/

namespace AuditTrail

namespace Json

/-! ## Code units -/

/-- No character is half of a surrogate pair. -/
theorem toNat_ranges (c : Char) : c.toNat < 0xD800 ∨ 0xDFFF < c.toNat ∧ c.toNat < 0x110000 := c.valid

theorem codeUnits_append_injective {c d : Char} {rest rest' : List Nat}
    (h : codeUnits c ++ rest = codeUnits d ++ rest') : c = d ∧ rest = rest' := by
  have hc := toNat_ranges c
  have hd := toNat_ranges d
  unfold codeUnits at h
  dsimp only at h
  split at h <;> split at h <;> simp only [List.cons_append, List.nil_append, List.cons.injEq] at h
  · exact ⟨Char.toNat_inj.mp h.1, h.2⟩
  -- A code unit of its own is not the first half of a pair.
  · have hfirst := h.1
    omega
  · have hfirst := h.1
    omega
  · obtain ⟨hfirst, hsecond, hrest⟩ := h
    exact ⟨Char.toNat_inj.mp (by omega), hrest⟩

theorem codeUnits_ne_nil (c : Char) : codeUnits c ≠ [] := by
  unfold codeUnits
  dsimp only
  split <;> simp

theorem flatMap_codeUnits_injective {a b : List Char} (h : a.flatMap codeUnits = b.flatMap codeUnits) :
    a = b := by
  induction a generalizing b with
  | nil =>
    cases b with
    | nil => rfl
    | cons d b => simp [codeUnits_ne_nil] at h
  | cons c a ih =>
    cases b with
    | nil => simp [codeUnits_ne_nil] at h
    | cons d b =>
      rw [List.flatMap_cons, List.flatMap_cons] at h
      obtain ⟨rfl, hrest⟩ := codeUnits_append_injective h
      rw [ih hrest]

/-- **A text is determined by its code units.** -/
theorem utf16_injective {a b : String} (h : utf16 a = utf16 b) : a = b :=
  String.toList_injective (flatMap_codeUnits_injective h)

/-! ## Canonical order -/

/-- A name comes before another in canonical text. -/
def NameLt (a b : String) : Prop := List.Lex (· < ·) (utf16 a) (utf16 b)

theorem NameLt.trans {a b c : String} (hab : NameLt a b) (hbc : NameLt b c) : NameLt a c :=
  List.lex_trans Nat.lt_trans hab hbc

theorem NameLt.irrefl (a : String) : ¬ NameLt a a := List.lex_irrefl Nat.lt_irrefl _

theorem nameLe_iff {a b : String} : nameLe a b = true ↔ a = b ∨ NameLt a b := by
  rw [nameLe, Text.lexLe_iff]
  exact or_congr_left ⟨utf16_injective, congrArg utf16⟩

theorem nameLe_trans {a b c : String} (hab : nameLe a b = true) (hbc : nameLe b c = true) :
    nameLe a c = true := by
  rcases nameLe_iff.mp hab with rfl | hlt
  · exact hbc
  · rcases nameLe_iff.mp hbc with rfl | hlt'
    · exact hab
    · exact nameLe_iff.mpr (Or.inr (hlt.trans hlt'))

/-- The names of members come one before the other. -/
def InOrder (members : List (String × Json)) : Prop := members.Pairwise fun a b => NameLt a.1 b.1

/-- The members of an object are in canonical order, and no two of them have one name. -/
theorem inOrder_inCanonicalOrder {members : List (String × Json)} (h : ByName.Sorted members) :
    InOrder (inCanonicalOrder members) := by
  have htrans : ∀ a b c : String × Json, nameLe a.1 b.1 = true → nameLe b.1 c.1 = true →
      nameLe a.1 c.1 = true := fun _ _ _ => nameLe_trans
  have htotal : ∀ a b : String × Json, (nameLe a.1 b.1 || nameLe b.1 a.1) = true := fun a b =>
    Text.lexLe_total (utf16 a.1) (utf16 b.1)
  have hsorted := List.pairwise_mergeSort htrans htotal members
  have hnames : (inCanonicalOrder members).Pairwise fun a b => a.1 ≠ b.1 :=
    List.pairwise_map.mp
      (((inCanonicalOrder_perm members).map Prod.fst).nodup_iff.mpr (ByName.nodup_names h))
  refine (hsorted.and hnames).imp fun ⟨hle, hne⟩ => ?_
  exact (nameLe_iff.mp hle).resolve_left hne

/-- There is one way to put members into canonical order. -/
theorem eq_inCanonicalOrder {members arranged : List (String × Json)} (hperm : arranged.Perm members)
    (h : InOrder arranged) (hsorted : ByName.Sorted members) : arranged = inCanonicalOrder members :=
  List.Perm.eq_of_pairwise (fun _ _ _ _ hlt hgt => absurd (hlt.trans hgt) (NameLt.irrefl _)) h
    (inOrder_inCanonicalOrder hsorted) (hperm.trans (inCanonicalOrder_perm members).symm)

/-! ## Arranged texts -/

/-- The text of a member with a given text for its value. -/
def memberText (m : String × Json) (value : List Char) : List Char := quoted (some m.1) ++ ':' :: value

/-- The texts of a value in which the members of every object stand in canonical order, each once. -/
inductive Arranged : Json → List Char → Prop
  | null : Arranged .null "null".toList
  | true : Arranged (.bool true) "true".toList
  | false : Arranged (.bool false) "false".toList
  | number (n : Json.Number) : Arranged (.number n) (canonicalNumeral n).chars
  | string (text : String) : Arranged (.string text) (quoted (some text))
  | array {items : List Json} {texts : List (List Char)} (h : List.Forall₂ Arranged items texts) :
      Arranged (.array items) ('[' :: (Text.joinWith ',' texts ++ [']']))
  | object {members arranged : List (String × Json)} {values : List (List Char)}
      (hperm : arranged.Perm members) (horder : InOrder arranged)
      (h : List.Forall₂ Arranged (arranged.map Prod.snd) values) :
      Arranged (.object members)
        ('\x7b' :: (Text.joinWith ',' (List.zipWith memberText arranged values) ++ ['\x7d']))

theorem Tree.chars_array (items : List Tree) :
    chars (.array items) = '[' :: (Text.joinWith ',' (items.map chars) ++ [']']) := by
  cases items with
  | nil => rfl
  | cons t items =>
    show '[' :: (t.chars ++ itemChars items) = _
    rw [List.map_cons]
    congr 1
    induction items generalizing t with
    | nil => simp [itemChars, Text.joinWith, List.intercalate]
    | cons u items ih => rw [itemChars, ih, List.map_cons, Text.joinWith_cons_cons, List.append_assoc,
        List.cons_append]

theorem Tree.chars_object (members : List (Option String × Tree)) :
    chars (.object members)
      = '\x7b' :: (Text.joinWith ',' (members.map fun m => quoted m.1 ++ ':' :: m.2.chars) ++ ['\x7d']) := by
  cases members with
  | nil => rfl
  | cons m members =>
    show '\x7b' :: (quoted m.1 ++ ':' :: (m.2.chars ++ memberChars members)) = _
    rw [List.map_cons]
    congr 1
    induction members generalizing m with
    | nil => simp [memberChars, Text.joinWith, List.intercalate]
    | cons n members ih => rw [memberChars, ih, List.map_cons, Text.joinWith_cons_cons, List.append_assoc,
        List.cons_append, List.append_assoc, List.cons_append]

/-- The canonical text of a value is arranged. -/
theorem arranged_canonical {v : Json} (h : v.WellFormed) : Arranged v v.canonicalTree.chars := by
  induction v with
  | null => exact .null
  | bool b =>
    cases b with
    | true => exact .true
    | false => exact .false
  | number n => exact .number n
  | string s => exact .string s
  | array items ih =>
    rw [canonicalTree, canonicalItems_eq, Tree.chars_array, List.map_map]
    refine .array (List.forall₂_map_right_iff.mpr (List.forall₂_same.mpr fun v hv => ?_))
    exact ih v hv (wellFormed_array.mp h v hv)
  | object members ih =>
    obtain ⟨hsorted, hmembers⟩ := wellFormed_object.mp h
    have hperm := inCanonicalOrder_perm members
    have hvalues : List.Forall₂ Arranged ((inCanonicalOrder members).map Prod.snd)
        ((inCanonicalOrder members).map fun m => m.2.canonicalTree.chars) := by
      rw [List.forall₂_map_left_iff, List.forall₂_map_right_iff, List.forall₂_same]
      intro m hm
      have hmem := hperm.mem_iff.mp hm
      exact ih m hmem (hmembers m hmem)
    have hobject := Arranged.object hperm (inOrder_inCanonicalOrder hsorted) hvalues
    rw [List.zipWith_map_right, List.zipWith_self] at hobject
    rw [canonicalTree_object, Tree.chars_object, List.map_map]
    exact hobject

/-- **There is one arranged text of a value, its canonical text.** -/
theorem arranged_iff {v : Json} (h : v.WellFormed) {text : List Char} :
    Arranged v text ↔ text = v.canonicalTree.chars := by
  refine ⟨fun harranged => ?_, fun heq => heq ▸ arranged_canonical h⟩
  induction v generalizing text with
  | null => cases harranged with | null => rfl
  | bool b => cases harranged <;> rfl
  | number n => cases harranged with | number => rfl
  | string s => cases harranged with | string => rfl
  | array items ih =>
    cases harranged with
    | array htexts =>
      have hall := eq_map_of_forall₂ htexts fun v hv text htext =>
        (ih v hv (wellFormed_array.mp h v hv) htext).symm
      rw [canonicalTree, canonicalItems_eq, Tree.chars_array, List.map_map, ← hall]
      rfl
  | object members ih =>
    obtain ⟨hsorted, hmembers⟩ := wellFormed_object.mp h
    cases harranged with
    | @object _ arranged _ hperm horder hvalues =>
      -- The order of the members is forced, and then the text of each of them by the induction.
      have hall := eq_map_of_forall₂ (List.forall₂_map_left_iff.mp hvalues) fun m hm text htext =>
        (ih m (hperm.mem_iff.mp hm) (hmembers m (hperm.mem_iff.mp hm)) htext).symm
      rw [← hall, List.zipWith_map_right, List.zipWith_self, eq_inCanonicalOrder hperm horder hsorted,
        canonicalTree_object, Tree.chars_object, List.map_map]
      rfl

/-! ## White space -/

mutual

/-- What stands in a text outside of its string literals. -/
def outside : List Char → List Char
  | [] => []
  | '"' :: rest => inside rest
  | c :: rest => c :: outside rest

/-- What stands outside of the string literals of a text that begins in one of them. -/
def inside : List Char → List Char
  | [] => []
  | '"' :: rest => outside rest
  | '\\' :: _ :: rest => inside rest
  | _ :: rest => inside rest

end

/-- There is no white space outside of string literals. -/
def Tight (text : List Char) : Prop := ∀ c ∈ outside text, Tree.isSpace c = false

/-- A text brings no white space to the texts it is put in front of, outside of string literals. -/
def Compact (text : List Char) : Prop := ∀ rest, Tight rest → Tight (text ++ rest)

theorem Compact.append {a b : List Char} (ha : Compact a) (hb : Compact b) : Compact (a ++ b) := by
  intro rest hrest
  rw [List.append_assoc]
  exact ha _ (hb rest hrest)

theorem outside_cons {c : Char} (h : c ≠ '"') (rest : List Char) :
    outside (c :: rest) = c :: outside rest := by
  rw [outside]
  exact h

/-- A character that is neither white space nor a quote. -/
def isBare (c : Char) : Bool := !Tree.isSpace c && c != '"'

theorem compact_of_bare {text : List Char} (h : text.all isBare = true) : Compact text := by
  intro rest hrest
  induction text with
  | nil => exact hrest
  | cons c text ih =>
    rw [List.all_cons, Bool.and_eq_true, isBare, Bool.and_eq_true, Bool.not_eq_true', bne_iff_ne] at h
    obtain ⟨⟨hspace, hquote⟩, htext⟩ := h
    rw [Tight, List.cons_append, outside_cons hquote]
    exact List.forall_mem_cons.mpr ⟨hspace, ih htext⟩

theorem inside_cons {c : Char} (hquote : c ≠ '"') (hslash : c ≠ '\\') (rest : List Char) :
    inside (c :: rest) = inside rest := by
  rw [inside]
  · exact hquote
  · exact fun d more hc => absurd hc hslash

theorem hexDigit_ne : ∀ d : Fin 16, Bytes.hexDigit d ≠ '"' ∧ Bytes.hexDigit d ≠ '\\' := by decide

theorem inside_escaped (c : Char) (rest : List Char) : inside (escaped c ++ rest) = inside rest := by
  unfold escaped
  split
  case h_8 _ hquote hslash _ _ _ _ _ =>
    split
    · rename_i hcontrol
      obtain ⟨hquote, hslash⟩ := hexDigit_ne ⟨c.toNat / 16, by omega⟩
      obtain ⟨hquote', hslash'⟩ := hexDigit_ne ⟨c.toNat % 16, by omega⟩
      show inside (Bytes.hexDigit (c.toNat / 16) :: Bytes.hexDigit (c.toNat % 16) :: rest) = inside rest
      rw [inside_cons hquote hslash, inside_cons hquote' hslash']
    · exact inside_cons hquote hslash rest
  all_goals rfl

theorem inside_flatMap_escaped (content rest : List Char) :
    inside (content.flatMap escaped ++ '"' :: rest) = outside rest := by
  induction content with
  | nil => rfl
  | cons c content ih => rw [List.flatMap_cons, List.append_assoc, inside_escaped, ih]

theorem outside_quoted (s : Option String) (rest : List Char) :
    outside (quoted s ++ rest) = outside rest := by
  cases s with
  | none =>
    have hhalf : quoted none = ['"', '\\', 'u', 'd', '8', '0', '0', '"'] := by decide
    rw [hhalf]
    rfl
  | some text =>
    have hinside := inside_flatMap_escaped text.toList rest
    rw [← List.singleton_append, ← List.append_assoc] at hinside
    exact hinside

theorem compact_quoted (s : Option String) : Compact (quoted s) := by
  intro rest hrest
  rwa [Tight, outside_quoted]

theorem compact_joinWith {parts : List (List Char)} (h : ∀ part ∈ parts, Compact part) :
    Compact (Text.joinWith ',' parts) := by
  induction parts with
  | nil => exact fun rest hrest => hrest
  | cons part more ih =>
    obtain ⟨hpart, hmore⟩ := List.forall_mem_cons.mp h
    cases more with
    | nil => simpa [Text.joinWith, List.intercalate] using hpart
    | cons next more =>
      have hcomma : Compact [','] := compact_of_bare (by decide)
      rw [Text.joinWith_cons_cons]
      exact hpart.append (hcomma.append (ih hmore))

theorem compact_numeral (n : Number.Numeral) : Compact n.chars := by
  have hdigit : ∀ d : Number.Digit, isBare d.char = true := by decide
  have hdigits (ds : List Number.Digit) : Compact (ds.map Number.Digit.char) := by
    refine compact_of_bare (List.all_eq_true.mpr (List.forall_mem_map.mpr ?_))
    exact fun d _ => hdigit d
  have hsign : Compact (if n.negative then ['-'] else []) := by
    split <;> exact compact_of_bare (by decide)
  have hfraction : Compact (Number.Numeral.fractionChars n.fraction) := by
    have hpoint : Compact ['.'] := compact_of_bare (by decide)
    cases n.fraction with
    | none => exact compact_of_bare rfl
    | some ds => exact hpoint.append (hdigits ds)
  have hexponent : Compact (Number.Numeral.markedExponent 'e' n.exponent) := by
    have hmark : Compact ['e'] := compact_of_bare (by decide)
    have hexponentSign (sign : Number.ExponentSign) :
        Compact (Number.Numeral.exponentSignChars sign) := by
      cases sign <;> exact compact_of_bare (by decide)
    cases n.exponent with
    | none => exact compact_of_bare rfl
    | some e => exact hmark.append ((hexponentSign e.sign).append (hdigits e.digits))
  rw [Number.Numeral.chars_eq]
  exact hsign.append ((hdigits n.whole).append (hfraction.append hexponent))

/-- A printed tree has no white space outside of string literals. -/
theorem compact_chars (t : Tree) : Compact t.chars := by
  induction t with
  | null => exact compact_of_bare (by decide)
  | bool b => cases b <;> exact compact_of_bare (by decide)
  | number n => exact compact_numeral n
  | string s => exact compact_quoted s
  | array items ih =>
    have hitems : Compact (Text.joinWith ',' (items.map Tree.chars)) :=
      compact_joinWith (List.forall_mem_map.mpr ih)
    have hopen : Compact ['['] := compact_of_bare (by decide)
    have hclose : Compact [']'] := compact_of_bare (by decide)
    rw [Tree.chars_array]
    exact hopen.append (hitems.append hclose)
  | object members ih =>
    have hcolon : Compact [':'] := compact_of_bare (by decide)
    have hmembers := compact_joinWith (List.forall_mem_map.mpr fun m hm =>
      (compact_quoted m.1).append (hcolon.append (ih m hm)))
    have hopen : Compact ['\x7b'] := compact_of_bare (by decide)
    have hclose : Compact ['\x7d'] := compact_of_bare (by decide)
    rw [Tree.chars_object]
    exact hopen.append (hmembers.append hclose)

/-- **Canonical text has no white space outside of string literals.** -/
theorem tight_canonical (v : Json) : Tight v.canonical.toList := by
  have htight := compact_chars v.canonicalTree [] (fun c hc => absurd hc (by simp [outside]))
  rwa [List.append_nil, ← String.toList_ofList (l := v.canonicalTree.chars)] at htight

end Json

end AuditTrail
