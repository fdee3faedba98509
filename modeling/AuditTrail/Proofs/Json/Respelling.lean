import Mathlib.Data.List.Perm.Basic
import AuditTrail.Log.Commitment
import AuditTrail.Proofs.Json.Order
import AuditTrail.Proofs.Json.Written

/-!
# Texts that are spelled differently

Two texts say the same if they differ in white space, in the escapes of their strings and in the order of
the members of objects that name each member once. What they write then is the same but for this order
(`Rearranged`), and a value does not know in which order its members were written
(`Tree.value?_of_rearranged`). So

> a text that is respelled has the value it had, and with it one canonical text and one hash
> (`canonical_order`).

A name that is repeated is different: the last of its members counts, so their order matters.
-/

namespace AuditTrail

theorem ByName.ofList_perm {α : Type} {entries entries' : List (String × α)}
    (hnodup : (ByName.names entries).Nodup) (hperm : entries'.Perm entries) :
    ByName.ofList entries' = ByName.ofList entries := by
  rw [← List.append_nil entries] at hnodup
  have htable := ByName.foldl_perm entries hnodup
  rw [List.append_nil] at htable
  exact ByName.ofList_of_perm (ByName.sorted_ofList entries) (hperm.trans htable.symm)

namespace Json

/-! ## Rearranging -/

namespace Tree

mutual

/-- The members of objects that name each member once stand in another order. -/
inductive Rearranged : Tree → Tree → Prop
  | refl (t : Tree) : Rearranged t t
  | array {items items' : List Tree} (h : List.Forall₂ Rearranged items items') :
      Rearranged (.array items) (.array items')
  | object {members between members' : List (Option String × Tree)}
      (h : List.Forall₂ RearrangedMember members between)
      (horder : members' = between ∨ (between.map Prod.fst).Nodup ∧ members'.Perm between) :
      Rearranged (.object members) (.object members')

/-- A member with another order in its value. -/
inductive RearrangedMember : Option String × Tree → Option String × Tree → Prop
  | value {name : Option String} {t t' : Tree} (h : Rearranged t t') :
      RearrangedMember (name, t) (name, t')

end

section

variable {room : Nat}

/-- A tree has every value that another one has. -/
def Keeps (room : Nat) (t t' : Tree) : Prop := ∀ v, t.value? room = some v → t'.value? room = some v

theorem valueItems?_of_keeps {items items' : List Tree} {vs : List Json}
    (h : List.Forall₂ (Keeps room) items items') (hvs : valueItems? room items = some vs) :
    valueItems? room items' = some vs := by
  rw [valueItems?_eq_some] at hvs ⊢
  induction h generalizing vs with
  | nil => exact hvs
  | cons hfirst _ ih =>
    cases hvs with
    | cons hv hvs => exact .cons (hfirst _ hv) (ih hvs)

theorem valueMembers?_of_keeps {members members' : List (Option String × Tree)}
    {entries : List (String × Json)}
    (h : List.Forall₂ (fun m m' => m'.1 = m.1 ∧ Keeps room m.2 m'.2) members members')
    (hentries : valueMembers? room members = some entries) :
    valueMembers? room members' = some entries := by
  rw [valueMembers?_eq_some] at hentries ⊢
  induction h generalizing entries with
  | nil => exact hentries
  | cons hfirst _ ih =>
    cases hentries with
    | cons he hentries => exact .cons ⟨hfirst.1 ▸ he.1, hfirst.2 _ he.2⟩ (ih hentries)

theorem valueMembers?_of_perm {members members' : List (Option String × Tree)}
    {entries : List (String × Json)} (h : valueMembers? room members = some entries)
    (hperm : members'.Perm members) :
    ∃ entries', valueMembers? room members' = some entries' ∧ entries'.Perm entries := by
  obtain ⟨entries', hentries', hsame⟩ := List.perm_comp_forall₂ hperm (valueMembers?_eq_some.mp h)
  exact ⟨entries', valueMembers?_eq_some.mpr hentries', hsame⟩

theorem names_of_valueMembers? {members : List (Option String × Tree)}
    {entries : List (String × Json)} (h : valueMembers? room members = some entries) :
    members.map Prod.fst = (ByName.names entries).map some := by
  rw [valueMembers?_eq_some] at h
  induction h with
  | nil => rfl
  | cons hfirst _ ih =>
    rw [List.map_cons, ih, hfirst.1]
    rfl

/-- Members that are named once each may stand in any order. -/
theorem ofMembers_of_perm {members members' : List (Option String × Tree)}
    {entries : List (String × Json)} (h : valueMembers? room members = some entries)
    (hnodup : (members.map Prod.fst).Nodup) (hperm : members'.Perm members) :
    (valueMembers? room members').map ofMembers = some (ofMembers entries) := by
  obtain ⟨entries', hentries', hsame⟩ := valueMembers?_of_perm h hperm
  rw [names_of_valueMembers? h] at hnodup
  rw [hentries', Option.map_some, ofMembers, ByName.ofList_perm (List.Nodup.of_map some hnodup) hsame]
  rfl

end

/-- **A value does not know the order its members were written in.** -/
theorem value?_of_rearranged {t t' : Tree} (h : Rearranged t t') (room : Nat) : Keeps room t t' := by
  induction t generalizing t' room with
  | null => cases h with | refl => exact fun _ hv => hv
  | bool b => cases h with | refl => exact fun _ hv => hv
  | number n => cases h with | refl => exact fun _ hv => hv
  | string s => cases h with | refl => exact fun _ hv => hv
  | array items ih =>
    cases h with
    | refl => exact fun _ hv => hv
    | array h =>
      intro v hv
      cases room with
      | zero => exact absurd hv (by simp [value?])
      | succ room =>
        obtain ⟨vs, hvs, rfl⟩ := Option.map_eq_some_iff.mp hv
        have hitems := forall₂_of_mem h fun t ht t' h => ih t ht h room
        rw [value?, valueItems?_of_keeps hitems hvs, Option.map_some]
  | object members ih =>
    cases h with
    | refl => exact fun _ hv => hv
    | @object _ between _ h horder =>
      intro v hv
      cases room with
      | zero => exact absurd hv (by simp [value?])
      | succ room =>
        obtain ⟨entries, hentries, rfl⟩ := Option.map_eq_some_iff.mp hv
        have hmembers : List.Forall₂ (fun m m' => m'.1 = m.1 ∧ Keeps room m.2 m'.2) members between :=
          forall₂_of_mem h fun m hm m' h => by
            cases h with
            | value h => exact ⟨rfl, ih _ hm h room⟩
        have hbetween := valueMembers?_of_keeps hmembers hentries
        rcases horder with rfl | ⟨hnodup, hperm⟩
        · rw [value?, hbetween, Option.map_some]
        · exact ofMembers_of_perm hbetween hnodup hperm

end Tree

/-! ## Respelling -/

/-- Texts that write the same but for white space, the escapes of strings and the order of the members of
objects that name each member once. -/
def Respelled (text text' : String) : Prop :=
  ∃ t t', Tree.WritesWhole t text.toList ∧ Tree.WritesWhole t' text'.toList ∧ Tree.Rearranged t t'

/-- **The texts of a value.** -/
theorem read?_eq_some {text : String} {v : Json} : Json.read? text = some v
    ↔ ∃ t, Tree.WritesWhole t text.toList ∧ t.value? Tree.maxDepth = some v := by
  simp only [Json.read?, Option.bind_eq_bind, Option.bind_eq_some_iff]
  constructor
  · rintro ⟨t, hread, hvalue⟩
    exact ⟨t, Tree.writes_of_read? hread ⟨_, _, hvalue⟩, hvalue⟩
  · rintro ⟨t, hwrites, hvalue⟩
    exact ⟨t, Tree.read?_of_writes hwrites, hvalue⟩

/-- What is respelled has the same value. -/
theorem read?_of_respelled {text text' : String} {v : Json} (hread : Json.read? text = some v)
    (h : Respelled text text') : Json.read? text' = some v := by
  obtain ⟨t, t', hwrites, hwrites', hrearranged⟩ := h
  obtain ⟨u, hu, hvalue⟩ := read?_eq_some.mp hread
  -- A text writes one tree only, since the reader gives it back.
  obtain rfl : t = u := Option.some.inj <|
    (Tree.read?_of_writes hwrites).symm.trans (Tree.read?_of_writes hu)
  exact read?_eq_some.mpr ⟨t', hwrites', Tree.value?_of_rearranged hrearranged _ _ hvalue⟩

/-! ## Canonical order -/

/-- Two names in the order they are kept in, of which the second comes first in canonical text. -/
theorem exists_not_inOrder :
    ∃ members : List (String × Json), ByName.Sorted members ∧ ¬ InOrder members := by
  have hkept : ByName.Sorted [("\uFB33", Json.null), ("😀", Json.null)] := by
    have hlt : "\uFB33" < "😀" := by decide +kernel
    exact List.pairwise_pair.mpr hlt
  refine ⟨_, hkept, fun h => ?_⟩
  rw [InOrder, List.pairwise_pair, NameLt] at h
  -- A pair begins below the last of the characters with one code unit.
  have hunits : utf16 "\uFB33" = [0xFB33] := by decide
  have hunits' : utf16 "😀" = [0xD83D, 0xDE00] := by decide
  rw [hunits, hunits', List.cons_lex_cons_iff] at h
  omega

/-- **Canonical order.** The canonical text of a value is the one text without white space in which the
members of every object stand, each once, in the order of the UTF-16 code units of their names, which is
not the order they are kept in. So it is the same, and its hash is, for all texts that a value is read
from if they differ in white space, in the order of members that are named once and in escapes only. -/
theorem canonical_order :
    (∀ v : Json, v.WellFormed → (∀ text, Arranged v text ↔ text = v.canonical.toList)
      ∧ Tight v.canonical.toList)
    ∧ (∃ members : List (String × Json), ByName.Sorted members ∧ ¬ InOrder members)
    ∧ (∀ text v, Json.read? text = some v ↔ ∃ t, Tree.WritesWhole t text.toList
      ∧ t.value? Tree.maxDepth = some v)
    ∧ ∀ text text' v, Json.read? text = some v → Respelled text text' →
      ∃ v', Json.read? text' = some v' ∧ v'.canonical = v.canonical
        ∧ canonicalHash v' = canonicalHash v := by
  refine ⟨fun v hv => ⟨fun text => ?_, tight_canonical v⟩, exists_not_inOrder,
    fun text v => read?_eq_some, fun text text' v hread h => ?_⟩
  · rw [arranged_iff hv, canonical, String.toList_ofList]
  · exact ⟨v, read?_of_respelled hread h, rfl, rfl⟩

theorem writesQuoted_escape : Tree.WritesQuoted "x" ['"', '\\', 'u', '0', '0', '7', '8', '"'] := by
  have hunit : Tree.unit? '0' '0' '7' '8' = some 0x78 := by decide
  have htext : "x".toList = ['x'] := by decide
  have hwritten : Tree.WritesText "x".toList ['\\', 'u', '0', '0', '7', '8'] := by
    rw [htext]
    exact .cons (.unit (.digits hunit) (by decide) (by decide)) .nil
  exact .quotes hwritten

/-- A text that is respelled in all three ways. -/
theorem canonical_order_respelled :
    ∃ v v', Json.read? "\x7b\"\\u0078\":true,\"a\":[]\x7d" = some v
      ∧ Json.read? " \x7b\"a\":[ ],\"x\":true\x7d" = some v'
      ∧ Arranged v v.canonical.toList ∧ Tight v.canonical.toList
      ∧ v'.canonical = v.canonical ∧ canonicalHash v' = canonicalHash v := by
  obtain ⟨harranged, _, hgrammar, hrespelled⟩ := canonical_order
  have hspace : Tree.Blank [' '] := List.forall_mem_singleton.mpr rfl
  have hwrites : Tree.WritesWhole (.object [(some "x", .bool true), (some "a", .array [])])
      "\x7b\"\\u0078\":true,\"a\":[]\x7d".toList := by
    have hwhole := Tree.WritesWhole.blanks Tree.blank_nil (.members Tree.blank_nil
      (.more (.colon writesQuoted_escape Tree.blank_nil Tree.blank_nil .true) Tree.blank_nil Tree.blank_nil
        (.last (.colon (Tree.writesQuoted_quoted "a") Tree.blank_nil Tree.blank_nil
          (.noItems Tree.blank_nil)) Tree.blank_nil))) Tree.blank_nil
    refine Eq.mp (congrArg _ ?_) hwhole
    decide
  have hwrites' : Tree.WritesWhole (.object [(some "a", .array []), (some "x", .bool true)])
      " \x7b\"a\":[ ],\"x\":true\x7d".toList := by
    have hwhole := Tree.WritesWhole.blanks hspace (.members Tree.blank_nil
      (.more (.colon (Tree.writesQuoted_quoted "a") Tree.blank_nil Tree.blank_nil (.noItems hspace))
        Tree.blank_nil Tree.blank_nil
        (.last (.colon (Tree.writesQuoted_quoted "x") Tree.blank_nil Tree.blank_nil .true)
          Tree.blank_nil))) Tree.blank_nil
    refine Eq.mp (congrArg _ ?_) hwhole
    decide
  have hrearranged : Tree.Rearranged (.object [(some "x", .bool true), (some "a", .array [])])
      (.object [(some "a", .array []), (some "x", .bool true)]) :=
    .object (List.forall₂_same.mpr fun _ _ => .value (.refl _)) (Or.inr ⟨by decide, List.Perm.swap _ _ _⟩)
  obtain ⟨v, hvalue⟩ : ∃ v, Tree.value? Tree.maxDepth
      (.object [(some "x", .bool true), (some "a", .array [])]) = some v :=
    Option.isSome_iff_exists.mp (by decide +kernel)
  have hread := (hgrammar _ v).mpr ⟨_, hwrites, hvalue⟩
  obtain ⟨v', hread', hcanonical, hhash⟩ :=
    hrespelled _ _ v hread ⟨_, _, hwrites, hwrites', hrearranged⟩
  obtain ⟨hall, htight⟩ := harranged v (wellFormed_of_read? hread).1
  exact ⟨v, v', hread, hread', (hall _).mpr rfl, htight, hcanonical, hhash⟩

end Json

end AuditTrail
