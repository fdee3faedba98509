import AuditTrail.Issuer.Issue
import AuditTrail.Proofs.Identity
import AuditTrail.Proofs.Number.Reading
import AuditTrail.Replay.Run
import Mathlib.Data.List.Forall2

/-!
# The grammar of protocol identities

Which texts are ids is said here by how an id is put together: a fixed beginning, the segments of a path
with slashes between them, the last one an instance id in one of four spellings, and a fragment that may
be missing (`Identity.Spells`). The reader accepts these texts and no others, and finds what they were put
together from:

> `Identity.parse id = .ok i` exactly if `id` spells `i` (`Identity.parse_eq_ok`).

All else follows from the grammar. The normal form of an identity that was read spells the same identity,
so reading it changes nothing, and two ids have one normal form exactly if they name one identity.
-/

namespace AuditTrail

/-! ## Instance ids -/

namespace Uuid

variable {u : Uuid} {text : List Char} {digits : List (Fin 16)}

/-- A text that writes hexadecimal digits, letters in either case. -/
def HexText (text : List Char) (digits : List (Fin 16)) : Prop :=
  List.Forall₂ (fun c (d : Fin 16) => Bytes.hexValue? c = some d.val) text digits

/-- The hyphenated spelling of an instance id: groups of eight, four, four, four and twelve digits. -/
def Hyphenated (u : Uuid) (text : List Char) : Prop :=
  ∃ a b c d e : List Char, [a, b, c, d, e].map List.length = [8, 4, 4, 4, 12]
    ∧ HexText (a ++ b ++ c ++ d ++ e) u.digits ∧ text = Text.joinWith '-' [a, b, c, d, e]

/-- The four spellings of an instance id. -/
inductive Spelling (u : Uuid) : List Char → Prop
  /-- The digits alone. -/
  | plain {text : List Char} (h : HexText text u.digits) : Spelling u text
  | hyphenated {text : List Char} (h : u.Hyphenated text) : Spelling u text
  | braced {text : List Char} (h : u.Hyphenated text) : Spelling u ('\x7b' :: (text ++ ['\x7d']))
  /-- The hyphenated spelling after `urn:uuid:`, in letters of either case. -/
  | urn {scheme text : List Char} (hscheme : scheme.map Text.lowerAscii = "urn:uuid:".toList)
    (h : u.Hyphenated text) : Spelling u (scheme ++ text)

theorem digit?_eq_some {c : Char} {d : Fin 16} :
    digit? c = some d ↔ Bytes.hexValue? c = some d.val := by
  unfold digit?
  cases hvalue : Bytes.hexValue? c with
  | none => simp
  | some v =>
    rw [Option.bind_eq_bind, Option.bind_some]
    split
    · simp [Fin.ext_iff]
    · rename_i hbound
      have hne : v ≠ d.val := fun heq => hbound (heq ▸ d.isLt)
      simp [hne]

theorem mapM_digit?_eq_some : text.mapM digit? = some digits ↔ HexText text digits := by
  induction text generalizing digits with
  | nil => simp [HexText, eq_comm]
  | cons c text ih =>
    simp only [List.mapM_cons, Option.bind_eq_bind, Option.bind_eq_some_iff]
    constructor
    · rintro ⟨d, hd, more, hmore, hdigits⟩
      rw [← Option.some.inj hdigits]
      exact List.Forall₂.cons (digit?_eq_some.mp hd) (ih.mp hmore)
    · intro h
      obtain ⟨d, more, hd, hmore, rfl⟩ := List.forall₂_cons_left_iff.mp h
      exact ⟨d, digit?_eq_some.mpr hd, more, ih.mpr hmore, rfl⟩

theorem ofDigitChars?_eq_some : ofDigitChars? text = some u ↔ HexText text u.digits := by
  unfold ofDigitChars?
  rw [← mapM_digit?_eq_some]
  cases hdigits : text.mapM digit? with
  | none => simp
  | some digits =>
    rw [Option.bind_eq_bind, Option.bind_some, Option.some.injEq]
    obtain ⟨own, hlength⟩ := u
    constructor
    · intro h
      split at h
      · exact congrArg Uuid.digits (Option.some.inj h)
      · exact absurd h (by simp)
    · rintro rfl
      rw [dif_pos hlength]

theorem HexText.length (h : HexText text u.digits) : text.length = 32 :=
  (List.Forall₂.length_eq h).trans u.length_digits

/-- No hexadecimal digit is a hyphen. -/
theorem HexText.hyphen_not_mem (h : HexText text digits) : '-' ∉ text := by
  have hhyphen : Bytes.hexValue? '-' = none := by decide
  induction h with
  | nil => simp
  | cons hdigit _ ih =>
    rw [List.mem_cons, not_or]
    refine ⟨?_, ih⟩
    rintro rfl
    rw [hhyphen] at hdigit
    exact absurd hdigit (by simp)

theorem ofHyphenated?_eq_some : ofHyphenated? text = some u ↔ u.Hyphenated text := by
  constructor
  · intro h
    unfold ofHyphenated? at h
    split at h
    · rename_i a b c d e hpieces
      split at h
      · rename_i hlengths
        refine ⟨a, b, c, d, e, hlengths, ofDigitChars?_eq_some.mp h, ?_⟩
        rw [← hpieces, Text.joinWith_piecesAt]
      · exact absurd h (by simp)
    · exact absurd h (by simp)
  · rintro ⟨a, b, c, d, e, hlengths, hhex, rfl⟩
    have hpieces : Text.piecesAt '-' (Text.joinWith '-' [a, b, c, d, e]) = [a, b, c, d, e] := by
      refine Text.piecesAt_joinWith (by simp) ?_
      intro group hgroup hmem
      refine hhex.hyphen_not_mem ?_
      have hflat : '-' ∈ [a, b, c, d, e].flatten := List.mem_flatten.mpr ⟨group, hgroup, hmem⟩
      simpa using hflat
    unfold ofHyphenated?
    rw [hpieces]
    dsimp only
    rw [if_pos hlengths, ofDigitChars?_eq_some.mpr hhex]

theorem Hyphenated.length (h : u.Hyphenated text) : text.length = 36 := by
  obtain ⟨a, b, c, d, e, hlengths, _, rfl⟩ := h
  simp only [List.map_cons, List.map_nil, List.cons.injEq, and_true] at hlengths
  obtain ⟨ha, hb, hc, hd, he⟩ := hlengths
  simp [Text.joinWith, List.intercalate, ha, hb, hc, hd, he]

/-- What stands between braces. -/
theorem braces_eq (hopen : text.head? = some '\x7b') (hclose : text.getLast? = some '\x7d') :
    text = '\x7b' :: ((text.drop 1).dropLast ++ ['\x7d']) := by
  cases text with
  | nil => simp at hopen
  | cons c rest =>
    obtain rfl : c = '\x7b' := Option.some.inj hopen
    rw [List.getLast?_cons] at hclose
    cases hlast : rest.getLast? with
    | none => simp [hlast] at hclose
    | some d =>
      obtain rfl : d = '\x7d' := by simpa [hlast] using hclose
      rw [List.drop_one, List.tail_cons, List.dropLast_append_getLast? _ hlast]

/-- **The reader of instance ids accepts the four spellings.** -/
theorem parse?_eq_some : parse? text = some u ↔ u.Spelling text := by
  constructor
  · intro h
    unfold parse? at h
    split at h
    · exact .plain (ofDigitChars?_eq_some.mp h)
    split at h
    · exact .hyphenated (ofHyphenated?_eq_some.mp h)
    split at h
    · split at h
      · rename_i hbraces
        rw [braces_eq hbraces.1 hbraces.2]
        exact .braced (ofHyphenated?_eq_some.mp h)
      · exact absurd h (by simp)
    split at h
    · split at h
      · rename_i hscheme
        rw [← List.take_append_drop 9 text]
        exact .urn hscheme (ofHyphenated?_eq_some.mp h)
      · exact absurd h (by simp)
    · exact absurd h (by simp)
  · intro h
    unfold parse?
    -- The four spellings differ in their length.
    cases h with
    | plain h => rw [if_pos h.length, ofDigitChars?_eq_some.mpr h]
    | hyphenated h =>
      rw [h.length, if_neg (by decide), if_pos rfl, ofHyphenated?_eq_some.mpr h]
    | @braced inner h =>
      have hlength : ('\x7b' :: (inner ++ ['\x7d'])).length = 38 := by simp [h.length]
      have hclose : ('\x7b' :: (inner ++ ['\x7d'])).getLast? = some '\x7d' := by
        rw [← List.cons_append, List.getLast?_concat]
      rw [hlength, if_neg (by decide), if_neg (by decide), if_pos rfl, if_pos ⟨rfl, hclose⟩]
      simpa using ofHyphenated?_eq_some.mpr h
    | @urn scheme inner hscheme h =>
      have hnine : scheme.length = 9 := by simpa using congrArg List.length hscheme
      have hlength : (scheme ++ inner).length = 45 := by simp [h.length, hnine]
      rw [hlength, if_neg (by decide), if_neg (by decide), if_neg (by decide), if_pos rfl,
        List.take_left' hnine, if_pos hscheme, List.drop_left' hnine, ofHyphenated?_eq_some.mpr h]

end Uuid

/-! ## Indices -/

namespace Number

variable {text : List Char}

theorem allDigits?_eq_some {digits : List Digit} :
    allDigits? text = some digits ↔ digits ≠ [] ∧ text = digits.map Digit.char := by
  constructor
  · intro h
    unfold allDigits? at h
    split at h
    · exact absurd h (by simp)
    · rename_i found hne hspan
      obtain rfl := Option.some.inj h
      exact ⟨hne, by simpa using (spanDigits_eq hspan).1⟩
    · exact absurd h (by simp)
  · rintro ⟨hne, rfl⟩
    have hspan := spanDigits_append digits noDigit_nil
    rw [List.append_nil] at hspan
    unfold allDigits?
    rw [hspan]
    cases digits with
    | nil => exact absurd rfl hne
    | cons d digits => rfl

/-- The readable indices: digits with an optional plus sign, and a value below `2 ^ 64`. -/
theorem natural64?_eq_some {n : Nat} :
    natural64? text = some n ↔ ∃ sign digits, (sign = [] ∨ sign = ['+']) ∧ digits ≠ []
      ∧ text = sign ++ digits.map Digit.char ∧ valueOf digits = n ∧ n < 2 ^ 64 := by
  unfold natural64?
  simp only [Option.bind_eq_bind, Option.bind_eq_some_iff, allDigits?_eq_some,
    Option.ite_none_right_eq_some, Option.some.injEq]
  constructor
  · rintro ⟨digits, ⟨hne, htext⟩, hbound, rfl⟩
    split at htext
    · rename_i hplus
      cases text with
      | nil => simp at hplus
      | cons c rest =>
        obtain rfl : c = '+' := Option.some.inj hplus
        exact ⟨['+'], digits, Or.inr rfl, hne, congrArg (List.cons '+') htext, rfl, by omega⟩
    · exact ⟨[], digits, Or.inl rfl, hne, htext, rfl, by omega⟩
  · rintro ⟨sign, digits, rfl | rfl, hne, rfl, rfl, hbound⟩
    · -- A text without a sign begins with a digit, which is not taken for one.
      obtain ⟨d, more, rfl⟩ := List.exists_cons_of_ne_nil hne
      refine ⟨d :: more, ⟨hne, ?_⟩, by omega, rfl⟩
      rw [if_neg (by simpa using d.char_ne_plus)]
      rfl
    · exact ⟨digits, ⟨hne, rfl⟩, by omega, rfl⟩

end Number

/-! ## Identities -/

namespace Identity

variable {i j : Identity} {path : List Char} {index : Option Nat}

/-- A segment of a path: not empty, and without the characters that end a segment or the path. -/
def IsPathSegment (segment : List Char) : Prop := segment ≠ [] ∧ '/' ∉ segment ∧ '#' ∉ segment

/-- What may follow the path of an id: nothing, or the index of an entry. -/
inductive Fragment : Option Nat → List Char → Prop
  | none : Fragment none []
  /-- A decimal number below `2 ^ 64`, with an optional plus sign in front. -/
  | index {sign : List Char} {digits : List Number.Digit} (hsign : sign = [] ∨ sign = ['+'])
    (hdigits : digits ≠ []) (hbound : Number.valueOf digits < 2 ^ 64) :
    Fragment (some (Number.valueOf digits)) ('#' :: (sign ++ digits.map Number.Digit.char))

/-- The segments of the path of an identity, with some spelling of its instance id. -/
def segments (i : Identity) (package : List (List Char)) (uuid : List Char) : List (List Char) :=
  i.host.toList :: "npl".toList :: (package ++ [i.protocolName.toList, uuid])

/-- The ids that name an identity: `urn:npl:`, the segments with slashes between them, and an optional
fragment. -/
def Spells (i : Identity) (id : String) : Prop :=
  ∃ package uuid fragment, package ≠ [] ∧ (∀ segment ∈ i.segments package uuid, IsPathSegment segment)
    ∧ i.packagePath.toList = Text.joinWith '/' package ∧ i.protocolId.Spelling uuid
    ∧ Fragment i.index fragment
    ∧ id.toList = urn.toList ++ (Text.joinWith '/' (i.segments package uuid) ++ fragment)

/-- A path is joined from the segments of the identity that is read from it. -/
theorem segments_of_ofPath (h : ofPath path index = .ok i) : ∃ package uuid, package ≠ []
    ∧ (∀ segment ∈ i.segments package uuid, segment ≠ [] ∧ '/' ∉ segment)
    ∧ i.packagePath.toList = Text.joinWith '/' package ∧ i.protocolId.Spelling uuid
    ∧ i.index = index ∧ path = Text.joinWith '/' (i.segments package uuid) := by
  unfold ofPath at h
  dsimp only at h
  split at h
  · exact absurd h (by simp)
  rename_i hlength
  split at h
  · exact absurd h (by simp)
  rename_i hempty
  split at h
  case h_2 => exact absurd h (by simp)
  rename_i host npl rest hsegments
  split at h
  · exact absurd h (by simp)
  rename_i hnpl
  split at h
  case h_2 => exact absurd h (by simp)
  rename_i name uuid hlast
  split at h
  case h_2 => exact absurd h (by simp)
  rename_i u hu
  obtain rfl := Except.ok.inj h
  have hrest : rest.take (rest.length - 2) ++ [name, uuid] = rest := by
    rw [← hlast, List.take_append_drop]
  have hall : host :: "npl".toList :: (rest.take (rest.length - 2) ++ [name, uuid])
      = Text.piecesAt '/' path := by
    rw [hrest, hsegments, Decidable.not_not.mp hnpl]
  refine ⟨rest.take (rest.length - 2), uuid, ?_, ?_, ?_, Uuid.parse?_eq_some.mp hu, rfl, ?_⟩
  · intro hnil
    rw [hsegments, ← hrest, hnil] at hlength
    simp at hlength
  · simp only [segments, String.toList_ofList, hall]
    intro segment hsegment
    refine ⟨?_, Text.not_mem_of_mem_piecesAt hsegment⟩
    rintro rfl
    exact hempty (List.any_eq_true.mpr ⟨[], hsegment, rfl⟩)
  · rw [String.toList_ofList]
  · simp only [segments, String.toList_ofList, hall, Text.joinWith_piecesAt]

/-- The identity that segments belong to is read from the path that is joined from them. -/
theorem ofPath_segments {package : List (List Char)} {uuid : List Char} (hpackage : package ≠ [])
    (hsegments : ∀ segment ∈ i.segments package uuid, segment ≠ [] ∧ '/' ∉ segment)
    (hpath : i.packagePath.toList = Text.joinWith '/' package) (huuid : i.protocolId.Spelling uuid) :
    ofPath (Text.joinWith '/' (i.segments package uuid)) i.index = .ok i := by
  have hpieces : Text.piecesAt '/' (Text.joinWith '/' (i.segments package uuid)) = i.segments package uuid :=
    Text.piecesAt_joinWith (by simp [segments]) fun segment hsegment => (hsegments segment hsegment).2
  have hlength : ¬ (i.segments package uuid).length < 5 := by
    have hpos := List.length_pos_of_ne_nil hpackage
    simp only [segments, List.length_cons, List.length_append, List.length_nil]
    omega
  have hempty : (i.segments package uuid).any List.isEmpty = false := by
    rw [List.any_eq_false]
    intro segment hsegment
    simpa using (hsegments segment hsegment).1
  have hcount : (package ++ [i.protocolName.toList, uuid]).length - 2 = package.length := by simp
  unfold ofPath
  rw [hpieces]
  dsimp only
  rw [if_neg hlength, hempty, if_neg Bool.false_ne_true, segments]
  dsimp only
  rw [if_neg (fun hnpl => hnpl rfl), hcount, List.take_left, List.drop_left]
  dsimp only
  rw [Uuid.parse?_eq_some.mpr huuid, ← hpath]
  simp only [String.ofList_toList]

/-- The path of an id has no `#` in it exactly if none of its segments has. -/
theorem hash_not_mem_joinWith {parts : List (List Char)} :
    '#' ∉ Text.joinWith '/' parts ↔ ∀ part ∈ parts, '#' ∉ part := by
  constructor
  · exact fun h part hpart hmem => h (Text.mem_joinWith_of_mem hpart hmem)
  · intro h hmem
    rcases Text.mem_joinWith hmem with heq | ⟨part, hpart, hc⟩
    · exact absurd heq (by decide)
    · exact h part hpart hc

theorem hash_not_mem_digits (digits : List Number.Digit) : '#' ∉ digits.map Number.Digit.char := by
  have hdigit : ∀ d : Number.Digit, d.char ≠ '#' := by decide
  intro hmem
  obtain ⟨d, _, hd⟩ := List.mem_map.mp hmem
  exact hdigit d hd

/-- What an id is read as, it spells. -/
theorem spells_of_parse {id : String} (h : parse id = .ok i) : i.Spells id := by
  unfold parse at h
  split at h
  · exact absurd h (by simp)
  rename_i rest hstart
  have hid := Text.dropStart?_eq_some.mp hstart
  split at h
  · rename_i hcut
    obtain ⟨package, uuid, hpackage, hsegments, hpath, huuid, hindex, rfl⟩ := segments_of_ofPath h
    have hhash := hash_not_mem_joinWith.mp (Text.cutAt?_eq_none.mp hcut)
    refine ⟨package, uuid, [], hpackage, ?_, hpath, huuid, hindex ▸ .none, by rw [hid, List.append_nil]⟩
    exact fun segment hsegment =>
      ⟨(hsegments segment hsegment).1, (hsegments segment hsegment).2, hhash segment hsegment⟩
  · rename_i path fragment hcut
    obtain ⟨rfl, hhash⟩ := Text.cutAt?_eq_some.mp hcut
    split at h
    · rename_i n hn
      obtain ⟨package, uuid, hpackage, hsegments, hpath, huuid, hindex, rfl⟩ := segments_of_ofPath h
      obtain ⟨sign, digits, hsign, hdigits, rfl, rfl, hbound⟩ := Number.natural64?_eq_some.mp hn
      have hhash := hash_not_mem_joinWith.mp hhash
      refine ⟨package, uuid, _, hpackage, ?_, hpath, huuid, hindex ▸ .index hsign hdigits hbound, hid⟩
      exact fun segment hsegment =>
        ⟨(hsegments segment hsegment).1, (hsegments segment hsegment).2, hhash segment hsegment⟩
    · exact absurd h (by simp)

/-- What spells an identity is read as that identity. -/
theorem parse_of_spells {id : String} (h : i.Spells id) : parse id = .ok i := by
  obtain ⟨package, uuid, fragment, hpackage, hsegments, hpath, huuid, hfragment, hid⟩ := h
  have hhash : '#' ∉ Text.joinWith '/' (i.segments package uuid) :=
    hash_not_mem_joinWith.mpr fun segment hsegment => (hsegments segment hsegment).2.2
  have hofPath : ofPath (Text.joinWith '/' (i.segments package uuid)) i.index = .ok i :=
    ofPath_segments hpackage
      (fun segment hsegment => ⟨(hsegments segment hsegment).1, (hsegments segment hsegment).2.1⟩)
      hpath huuid
  unfold parse
  rw [Text.dropStart?_eq_some.mpr hid]
  dsimp only
  generalize i.index = index at hfragment hofPath
  cases hfragment with
  | none => rw [List.append_nil, Text.cutAt?_eq_none.mpr hhash, hofPath]
  | index hsign hdigits hbound =>
    rw [Text.cutAt?_eq_some.mpr ⟨rfl, hhash⟩]
    dsimp only
    rw [Number.natural64?_eq_some.mpr ⟨_, _, hsign, hdigits, rfl, rfl, hbound⟩]
    exact hofPath

/-- **The reader of ids accepts the grammar, and finds what an id spells.** -/
theorem parse_eq_ok {id : String} : parse id = .ok i ↔ i.Spells id :=
  ⟨spells_of_parse, parse_of_spells⟩

/-! ## Normal forms -/

theorem segment_of_mem {package : List (List Char)} {uuid : List Char}
    (h : ∀ segment ∈ i.segments package uuid, IsPathSegment segment) {uuid' : List Char}
    (huuid : IsPathSegment uuid') : ∀ segment ∈ i.segments package uuid', IsPathSegment segment := by
  intro segment hsegment
  simp only [segments, List.mem_cons, List.mem_append, List.not_mem_nil, or_false] at h hsegment
  rcases hsegment with hhost | hnpl | hpackage | hname | rfl
  · exact h segment (Or.inl hhost)
  · exact h segment (Or.inr (Or.inl hnpl))
  · exact h segment (Or.inr (Or.inr (Or.inl hpackage)))
  · exact h segment (Or.inr (Or.inr (Or.inr (Or.inl hname))))
  · exact huuid

theorem isPathSegment_uuid (u : Uuid) : IsPathSegment u.chars :=
  ⟨by simp [Uuid.chars, Text.joinWith, List.intercalate], u.not_mem_chars⟩

theorem joinWith_segments {package : List (List Char)} (hpackage : package ≠ []) (uuid : List Char) :
    Text.joinWith '/' (i.segments package uuid) = i.host.toList ++ '/' :: ("npl".toList
      ++ '/' :: (Text.joinWith '/' package ++ '/' :: (i.protocolName.toList ++ '/' :: uuid))) := by
  obtain ⟨first, more, rfl⟩ := List.exists_cons_of_ne_nil hpackage
  have hconcat : first :: (more ++ [i.protocolName.toList, uuid])
      = (first :: more ++ [i.protocolName.toList]) ++ [uuid] := by simp
  rw [segments, Text.joinWith_cons_cons, List.cons_append, Text.joinWith_cons_cons, hconcat,
    Text.joinWith_concat (by simp), Text.joinWith_concat (by simp)]
  simp only [List.append_assoc, List.cons_append]

/-- The normal form of an identity that was read spells this identity. -/
theorem spells_display {id : String} (h : i.Spells id) : i.Spells i.display := by
  obtain ⟨package, uuid, fragment, hpackage, hsegments, hpath, _, hfragment, _⟩ := h
  have hend : ∃ chars, Fragment i.index chars ∧ i.display.toList
      = urn.toList ++ (Text.joinWith '/' (i.segments package i.protocolId.chars) ++ chars) := by
    rw [joinWith_segments hpackage, ← hpath]
    generalize hindex : i.index = index at hfragment
    cases hfragment with
    | none =>
      refine ⟨[], .none, ?_⟩
      simp [display, hindex, route, Uuid.display, String.toList_append]
    | @index _ digits hsign hdigits hbound =>
      have hvalue := Number.valueOf_digitsOf (Number.valueOf digits)
      have hnormal := @Fragment.index [] (Number.digitsOf (Number.valueOf digits)) (Or.inl rfl)
        (Number.digitsOf_ne_nil _) (by rwa [hvalue])
      rw [hvalue] at hnormal
      refine ⟨_, hnormal, ?_⟩
      simp [display, hindex, route, Uuid.display, String.toList_append, Number.decimal, Number.naturalChars]
  obtain ⟨chars, hchars, hdisplay⟩ := hend
  exact ⟨package, i.protocolId.chars, chars, hpackage, segment_of_mem hsegments (isPathSegment_uuid _), hpath,
    Uuid.parse?_eq_some.mp Uuid.parse?_chars, hchars, hdisplay⟩

/-- What follows the last slash of an id is its instance id, whatever the parts in front look like. -/
theorem protocolId_of_spells {front digits : List Char} {u : Uuid} {id : String} (h : i.Spells id)
    (hid : id.toList = urn.toList ++ ((front ++ '/' :: u.chars) ++ '#' :: digits)) (hdigits : '#' ∉ digits) :
    i.protocolId = u := by
  obtain ⟨package, uuid, fragment, hpackage, hsegments, _, huuid, hfragment, hspelled⟩ := h
  have hpath : '#' ∉ Text.joinWith '/' (i.segments package uuid) :=
    hash_not_mem_joinWith.mpr fun segment hsegment => (hsegments segment hsegment).2.2
  have hslash : '/' ∉ uuid := (hsegments uuid (by simp [segments])).2.1
  rw [hid, List.append_cancel_left_eq] at hspelled
  generalize i.index = index at hfragment
  cases hfragment with
  | none =>
    rw [List.append_nil] at hspelled
    exact absurd (by simp [← hspelled]) hpath
  | @index sign digits' hsign _ _ =>
    -- The sign of the index is the only one in the id, and the last segment has no slash in it.
    have hindex : '#' ∉ sign ++ digits'.map Number.Digit.char := by
      rcases hsign with rfl | rfl
      · exact hash_not_mem_digits digits'
      · simpa using hash_not_mem_digits digits'
    obtain ⟨hsame, _⟩ := Text.append_sep_injective hdigits hindex hspelled
    rw [joinWith_segments hpackage] at hsame
    simp only [← List.cons_append, ← List.append_assoc] at hsame
    obtain ⟨_, rfl⟩ := Text.append_sep_injective u.not_mem_chars.1 hslash hsame
    have hread := Uuid.parse?_eq_some.mpr huuid
    rw [Uuid.parse?_chars] at hread
    exact (Option.some.inj hread).symm

/-- **A reader that accepts the display form of an identity finds its instance id.** -/
theorem protocolId_of_parse {index : Nat}
    (h : parse ({ i with index := some index }).display = .ok j) : j.protocolId = i.protocolId := by
  have hdisplay : ({ i with index := some index }).display.toList
      = urn.toList ++ ((i.host ++ i.route).toList ++ '/' :: i.protocolId.chars
        ++ '#' :: Number.naturalChars index) := by
    simp [display, Uuid.display, Number.decimal, route, String.toList_append]
  exact protocolId_of_spells (spells_of_parse h) hdisplay (hash_not_mem_digits _)

/-- No slash is in the name of a protocol. -/
theorem slash_not_mem_protocolName {id : String} (h : i.Spells id) : '/' ∉ i.protocolName.toList := by
  obtain ⟨package, uuid, fragment, _, hsegments, _⟩ := h
  exact (hsegments _ (by simp [segments])).2.1

/-- A route names the package and the protocol. -/
theorem route_injective {id id' : String} (hi : i.Spells id) (hj : j.Spells id') (h : i.route = j.route) :
    i.packagePath = j.packagePath ∧ i.protocolName = j.protocolName := by
  have hlists := congrArg String.toList h
  simp only [route, String.toList_append, List.append_assoc, List.append_cancel_left_eq] at hlists
  obtain ⟨hpackage, hname⟩ := Text.append_sep_injective (slash_not_mem_protocolName hi)
    (slash_not_mem_protocolName hj) hlists
  exact ⟨String.toList_injective hpackage, String.toList_injective hname⟩

end Identity

/-- **The grammar of ids and their normal form.** An id is read as an identity exactly if it spells it, and
the identity of an entry with any other id is a failure that names this id. The normal form of an identity
that was read is read as the same identity, so two that were read have one normal form only if they are
one. Their route names their package and protocol. -/
theorem identity_grammar :
    (∀ id i, Identity.parse id = .ok i ↔ i.Spells id)
    ∧ (∀ e : Entry, (∃ i, i.Spells e.id ∧ Replay.identityOf e = .ok i)
      ∨ (∀ i, ¬ Identity.Spells i e.id)
        ∧ ∃ fault : Identity.Fault, Replay.identityOf e = .error (.malformedIdentity e.id fault.reason))
    ∧ (∀ id i, Identity.parse id = .ok i → Identity.parse i.display = .ok i)
    ∧ ∀ id id' i j, Identity.parse id = .ok i → Identity.parse id' = .ok j →
      (i.display = j.display ↔ i = j)
      ∧ (i.route = j.route → i.packagePath = j.packagePath ∧ i.protocolName = j.protocolName) := by
  have hdisplay : ∀ id i, Identity.parse id = .ok i → Identity.parse i.display = .ok i := fun id i h =>
    Identity.parse_eq_ok.mpr (Identity.spells_display (Identity.parse_eq_ok.mp h))
  refine ⟨fun _ _ => Identity.parse_eq_ok, ?_, hdisplay, ?_⟩
  · intro e
    cases hparse : Identity.parse e.id with
    | ok i => exact Or.inl ⟨i, Identity.parse_eq_ok.mp hparse, by rw [Replay.identityOf, hparse]; rfl⟩
    | error fault =>
      refine Or.inr ⟨fun i hi => ?_, fault, by rw [Replay.identityOf, hparse]; rfl⟩
      rw [Identity.parse_eq_ok.mpr hi] at hparse
      exact absurd hparse (by simp)
  · intro id id' i j hi hj
    refine ⟨⟨fun hsame => ?_, congrArg Identity.display⟩,
      Identity.route_injective (Identity.parse_eq_ok.mp hi) (Identity.parse_eq_ok.mp hj)⟩
    have hread := hdisplay id i hi
    rw [hsame, hdisplay id' j hj] at hread
    exact (Except.ok.inj hread).symm

/-- An id with its instance id in braces and capitals, and a plus sign and zeros in its index. -/
def loanEntryId : String :=
  "urn:npl:localhost/npl/demo/loans/Iou/\x7b3FA85F64-5717-4562-B3FC-2C963F66AFA6\x7d#+007"

/-- An id of the same instance with digits alone, which names no entry. -/
def loanInstanceId : String := "urn:npl:localhost/npl/demo/loans/Iou/3fa85f6457174562b3fc2c963f66afa6"

/-- The identity of the instance, with the index of an entry. -/
def loanIdentity (index : Option Nat) : Identity :=
  ⟨"localhost", "demo/loans", "Iou", Draft.exampleIdentity.protocolId, index⟩

/-- Two ids of one instance, one of them with the index of an entry: the normal forms are read back, and
they differ as the identities do. -/
theorem identity_grammar_loan :
    Identity.parse loanEntryId = .ok (loanIdentity (some 7))
      ∧ Identity.parse loanInstanceId = .ok (loanIdentity none)
      ∧ (loanIdentity (some 7)).Spells loanEntryId
      ∧ Identity.parse (loanIdentity (some 7)).display = .ok (loanIdentity (some 7))
      ∧ (loanIdentity (some 7)).display ≠ (loanIdentity none).display
      ∧ (loanIdentity (some 7)).packagePath = (loanIdentity none).packagePath := by
  have hentry : Identity.parse loanEntryId = .ok (loanIdentity (some 7)) := by decide +kernel
  have hinstance : Identity.parse loanInstanceId = .ok (loanIdentity none) := by decide +kernel
  obtain ⟨hgrammar, _, hdisplay, hsame⟩ := identity_grammar
  obtain ⟨hforms, hroutes⟩ := hsame _ _ _ _ hentry hinstance
  refine ⟨hentry, hinstance, (hgrammar _ _).mp hentry, hdisplay _ _ hentry, ?_, (hroutes rfl).1⟩
  exact fun h => absurd (congrArg Identity.index (hforms.mp h)) (by simp [loanIdentity])

end AuditTrail
