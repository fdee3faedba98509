import AuditTrail.Proofs.Files.Listing
import AuditTrail.Proofs.Replay.Declarations
import AuditTrail.Proofs.Text.Pieces
import Mathlib.Data.List.Nodup
import Mathlib.Data.String.Basic

/-!
# Whose turn it is, by the sources

The hint for a name is the first party of the earliest declaration of it that has one: texts in the order
they were added, and in a text from left to right (`EarliestParty`). A declaration whose parties are all
blank stands in nobody's way. A hint that is there stays.

A scan adds the texts of the source files below a directory in the order of their paths. Files with different
paths can be put into this order in one way only, so

> a scan gives the same hints in whatever order a directory lists its entries (`earliest_party`).
-/

namespace AuditTrail

open Replay (Declaration PartyHints actionWords declarations declaredParties isSourceName protocolWords sourceEnding)
open Replay.Declaration (FirstParty Keywords Leftmost)

/-! ## The earliest declaration -/

namespace Replay

variable {words : List String} {name party : String}

/-- The party of the earliest declaration of a name that has one: first text first, then leftmost. -/
def EarliestParty (words texts : List String) (name party : String) : Prop :=
  ∃ before text after ds d ds', texts = before ++ text :: after ∧ Leftmost words [] text.toList (ds ++ d :: ds')
    ∧ d.name = name ∧ d.FirstParty party ∧ (∀ e ∈ ds, e.name = name → ∀ p, ¬ e.FirstParty p)
    ∧ ∀ earlier ∈ before, ∀ es, Leftmost words [] earlier.toList es → ∀ e ∈ es, e.name = name → ∀ p, ¬ e.FirstParty p

/-- What a declaration says about a name. -/
def partyFor? (name : String) (d : Declaration) : Option String := if d.name = name then d.firstParty? else none

theorem lookup_declaredParties (words : List String) (text name : String) :
    (declaredParties words text).lookup name = (declarations words text).findSome? (partyFor? name) := by
  rw [declaredParties]
  induction declarations words text with
  | nil => rfl
  | cons d ds ih =>
    rw [List.findSome?_cons, partyFor?, ← ih]
    cases hparty : d.firstParty? with
    | none => simp [hparty]
    | some party =>
      by_cases hname : d.name = name
      · simp [hparty, hname]
      · rw [List.filterMap_cons_some (by rw [hparty]; rfl), List.lookup_cons,
          beq_eq_false_iff_ne.mpr (Ne.symm hname), if_neg hname]

theorem partyFor?_eq_none {d : Declaration} :
    partyFor? name d = none ↔ (d.name = name → ∀ party, ¬ d.FirstParty party) := by
  rw [partyFor?, ite_eq_right_iff]
  refine imp_congr_right fun _ => ?_
  rw [Option.eq_none_iff_forall_not_mem]
  exact forall_congr' fun party => not_congr Declaration.firstParty?_eq_some

theorem partyFor?_eq_some {d : Declaration} : partyFor? name d = some party ↔ d.name = name ∧ d.FirstParty party := by
  unfold partyFor?
  split
  · next hname => rw [Declaration.firstParty?_eq_some, and_iff_right hname]
  · next hname => simp [hname]

/-- What the texts say about a name. -/
theorem findSome?_declarations (hwords : Keywords words) (texts : List String) :
    (texts.findSome? fun text => (declarations words text).findSome? (partyFor? name)) = some party
      ↔ EarliestParty words texts name party := by
  rw [List.findSome?_eq_some_iff]
  constructor
  · rintro ⟨before, text, after, htexts, hfound, hbefore⟩
    obtain ⟨ds, d, ds', hds, hd, hblank⟩ := List.findSome?_eq_some_iff.mp hfound
    obtain ⟨hname, hparty⟩ := partyFor?_eq_some.mp hd
    refine ⟨before, text, after, ds, d, ds', htexts, (Declaration.declarations_eq_iff hwords).mp hds, hname, hparty,
      fun e he => partyFor?_eq_none.mp (hblank e he), fun earlier hearlier es hes e he => partyFor?_eq_none.mp ?_⟩
    rw [← (Declaration.declarations_eq_iff hwords).mpr hes] at he
    exact List.findSome?_eq_none_iff.mp (hbefore earlier hearlier) e he
  · rintro ⟨before, text, after, ds, d, ds', htexts, hleftmost, hname, hparty, hblank, hbefore⟩
    refine ⟨before, text, after, htexts, ?_, fun earlier hearlier => ?_⟩
    · rw [(Declaration.declarations_eq_iff hwords).mpr hleftmost, List.findSome?_eq_some_iff]
      exact ⟨ds, d, ds', rfl, partyFor?_eq_some.mpr ⟨hname, hparty⟩, fun e he => partyFor?_eq_none.mpr (hblank e he)⟩
    · refine List.findSome?_eq_none_iff.mpr fun e he => partyFor?_eq_none.mpr ?_
      exact hbefore earlier hearlier _ ((Declaration.declarations_eq_iff hwords).mp rfl) e he

/-! ## Adding texts -/

namespace PartyHints

/-- The hints of some texts. -/
def ofTexts (texts : List String) : PartyHints := texts.foldl addSource .none

variable {hints : PartyHints}

theorem foldl_addSource (texts : List String) (hints : PartyHints) :
    texts.foldl addSource hints = ⟨hints.constructors ++ texts.flatMap (declaredParties protocolWords),
      hints.actions ++ texts.flatMap (declaredParties actionWords)⟩ := by
  induction texts generalizing hints with
  | nil => simp
  | cons text texts ih =>
    rw [List.foldl_cons, ih, addSource, List.flatMap_cons, List.flatMap_cons, List.append_assoc, List.append_assoc]

theorem lookup_flatMap (words texts : List String) (name : String) :
    (texts.flatMap (declaredParties words)).lookup name
      = texts.findSome? fun text => (declarations words text).findSome? (partyFor? name) := by
  induction texts with
  | nil => rfl
  | cons text texts ih =>
    rw [List.flatMap_cons, List.lookup_append, ih, lookup_declaredParties, List.findSome?_cons]
    cases (declarations words text).findSome? (partyFor? name) <;> rfl

theorem forAction?_ofTexts (texts : List String) :
    (ofTexts texts).forAction? name = some party ↔ EarliestParty actionWords texts name party := by
  rw [ofTexts, foldl_addSource, forAction?, ← findSome?_declarations Declaration.keywords_action, ← lookup_flatMap]
  rfl

theorem forConstructor?_ofTexts (texts : List String) :
    (ofTexts texts).forConstructor? name = some party ↔ EarliestParty protocolWords texts name party := by
  rw [ofTexts, foldl_addSource, forConstructor?, ← findSome?_declarations Declaration.keywords_protocol,
    ← lookup_flatMap]
  rfl

/-- A hint that is there stays when a text is added. -/
theorem forAction?_addSource (text : String) (h : hints.forAction? name = some party) :
    (hints.addSource text).forAction? name = some party := by
  rw [forAction?] at h
  rw [forAction?, addSource, List.lookup_append, h, Option.some_or]

theorem forConstructor?_addSource (text : String) (h : hints.forConstructor? name = some party) :
    (hints.addSource text).forConstructor? name = some party := by
  rw [forConstructor?] at h
  rw [forConstructor?, addSource, List.lookup_append, h, Option.some_or]

end PartyHints

end Replay

/-! ## The source files of a directory -/

namespace FileTree

/-- The last of the names, or the name of the file itself, is that of a source: it ends in `.npl`, with
something in front of that. -/
def IsSource (name : String) (names : List String) : Prop :=
  ∃ stem, stem ≠ [] ∧ (names.getLastD name).toList = stem ++ sourceEnding.toList

theorem isSourceName_iff {name : List Char} :
    isSourceName name = true ↔ ∃ stem, stem ≠ [] ∧ name = stem ++ sourceEnding.toList := by
  rw [isSourceName, Bool.and_eq_true, Text.startsWith_iff, List.reverse_prefix, decide_eq_true_iff]
  constructor
  · rintro ⟨⟨stem, rfl⟩, hlength⟩
    refine ⟨stem, ?_, rfl⟩
    rintro rfl
    exact absurd hlength (by decide)
  · rintro ⟨stem, hstem, rfl⟩
    refine ⟨List.suffix_append _ _, ?_⟩
    have hpositive := List.length_pos_iff.mpr hstem
    rw [List.length_append]
    exact Nat.lt_add_of_pos_left hpositive

theorem isSource_cons {name first : String} {names : List String} :
    IsSource name (first :: names) ↔ IsSource first names := by
  rw [IsSource, IsSource, List.getLastD_cons]

theorem holds_file {content content' : Bytes} {names : List String} :
    (file content).Holds names content' ↔ names = [] ∧ content' = content := by
  constructor
  · rintro ⟨⟩
    exact ⟨rfl, rfl⟩
  · rintro ⟨rfl, rfl⟩
    exact .here

mutual

theorem mem_sources (name : String) : ∀ (t : FileTree) (names : List String) (content : Bytes),
    (names, content) ∈ t.sources name ↔ t.Holds names content ∧ IsSource name names
  | .file content, names, content' => by
    rw [sources, holds_file]
    constructor
    · intro h
      split at h
      · next hname =>
        rw [List.mem_singleton, Prod.mk.injEq] at h
        obtain ⟨rfl, rfl⟩ := h
        exact ⟨⟨rfl, rfl⟩, isSourceName_iff.mp hname⟩
      · exact absurd h (by simp)
    · rintro ⟨⟨rfl, rfl⟩, hname⟩
      rw [if_pos (show isSourceName name.toList = true from isSourceName_iff.mpr hname)]
      exact List.mem_singleton_self _
  | .directory entries, names, content => mem_entrySources entries name names content

theorem mem_entrySources : ∀ (entries : List (String × FileTree)) (name : String) (names : List String)
    (content : Bytes), (names, content) ∈ entrySources entries
      ↔ (directory entries).Holds names content ∧ IsSource name names
  | [], name, names, content => by
    constructor
    · intro h
      exact absurd h (by simp [entrySources])
    · rintro ⟨hholds, -⟩
      cases hholds with
      | inside hentry _ => exact absurd hentry (by simp)
  | (first, t) :: rest, name, names, content => by
    have hfirst := mem_sources first t
    have hrest := mem_entrySources rest name names content
    rw [entrySources, List.mem_append, hrest, holds_cons, or_and_right]
    refine or_congr_left ?_
    simp only [List.mem_map, Prod.mk.injEq, Prod.exists]
    constructor
    · rintro ⟨inner, content', hmem, rfl, rfl⟩
      obtain ⟨hholds, hsource⟩ := (hfirst inner content').mp hmem
      exact ⟨⟨inner, rfl, hholds⟩, isSource_cons.mpr hsource⟩
    · rintro ⟨⟨inner, rfl, hholds⟩, hsource⟩
      exact ⟨inner, content, (hfirst inner content).mpr ⟨hholds, isSource_cons.mp hsource⟩, rfl, rfl⟩

end

/-- Different files are found under different names. -/
theorem nodup_sources {t : FileTree} (h : t.Distinct) (name : String) : ((t.sources name).map Prod.fst).Nodup := by
  induction h generalizing name with
  | file content =>
    rw [sources]
    split <;> simp
  | empty => simp [sources, entrySources]
  | @entry first t entries _ new _ ihInner ihOthers =>
    have hothers : ((entrySources entries).map Prod.fst).Nodup := ihOthers name
    rw [sources, entrySources, List.map_append, List.map_map, List.nodup_append]
    refine ⟨?_, hothers, ?_⟩
    · have hcons := List.Nodup.map (List.cons_injective (a := first)) (ihInner first)
      simpa [Function.comp_def] using hcons
    · rintro _ hinner names houter rfl
      obtain ⟨⟨inner, content⟩, -, rfl⟩ := List.mem_map.mp hinner
      obtain ⟨⟨_, content'⟩, hmem, heq⟩ := List.mem_map.mp houter
      cases heq
      cases ((mem_entrySources entries name _ _).mp hmem).1 with
      | inside hentry _ => exact new (List.mem_map_of_mem hentry)

end FileTree

namespace Workspace

/-- A file comes before another one in the order of their paths. -/
def PathLt (a b : List String × Bytes) : Prop := List.Lex (· < ·) a.1 b.1

theorem PathLt.trans {a b c : List String × Bytes} (hab : PathLt a b) (hbc : PathLt b c) : PathLt a c :=
  List.lex_trans String.lt_trans hab hbc

theorem PathLt.irrefl (a : List String × Bytes) : ¬ PathLt a a := List.lex_irrefl String.lt_irrefl _

/-- The source files in a tree, in the order of their paths. -/
def sortedSources (name : String) (t : FileTree) : List (List String × Bytes) :=
  (t.sources name).mergeSort fun a b => Text.lexLe (fun x y => decide (x < y)) a.1 b.1

variable {w w' : Workspace} {p : Path} {t t' : FileTree} {name : String}

theorem mem_sortedSources {names : List String} {content : Bytes} :
    (names, content) ∈ sortedSources name t ↔ t.Holds names content ∧ FileTree.IsSource name names := by
  rw [sortedSources, List.mem_mergeSort]
  exact FileTree.mem_sources name t names content

theorem lexLe_trans {a b c : List String} (hab : Text.lexLe (fun x y => decide (x < y)) a b = true)
    (hbc : Text.lexLe (fun x y => decide (x < y)) b c = true) : Text.lexLe (fun x y => decide (x < y)) a c = true := by
  rw [Text.lexLe_iff] at hab hbc ⊢
  rcases hab with rfl | hab
  · exact hbc
  · rcases hbc with rfl | hbc
    · exact .inr hab
    · exact .inr (List.lex_trans String.lt_trans hab hbc)

theorem pairwise_sortedSources (h : t.Distinct) : (sortedSources name t).Pairwise PathLt := by
  have hsorted : (sortedSources name t).Pairwise fun a b => Text.lexLe (fun x y => decide (x < y)) a.1 b.1 = true := by
    apply List.pairwise_mergeSort
    · exact fun a b c => lexLe_trans
    · exact fun a b => Text.lexLe_total a.1 b.1
  have hdifferent : (sortedSources name t).Pairwise fun a b => a.1 ≠ b.1 := by
    have hnodup := FileTree.nodup_sources h name
    rw [← ((List.mergeSort_perm (t.sources name) _).map Prod.fst).nodup_iff, List.Nodup, List.pairwise_map] at hnodup
    exact hnodup
  exact (hsorted.and hdifferent).imp fun hab => (Text.lexLe_iff.mp hab.1).resolve_left hab.2

/-- There is one way to put the source files in order. -/
theorem sortedSources_eq (h : t.Distinct) {files : List (List String × Bytes)} (hfiles : files.Pairwise PathLt)
    (hmem : ∀ names content, (names, content) ∈ files ↔ t.Holds names content ∧ FileTree.IsSource name names) :
    sortedSources name t = files := by
  have hsorted : (sortedSources name t).Pairwise PathLt := pairwise_sortedSources h
  have hne : ∀ {a b : List String × Bytes}, PathLt a b → a ≠ b := fun hab heq => PathLt.irrefl _ (heq ▸ hab)
  refine List.Perm.eq_of_pairwise (fun a b _ _ hab hba => absurd (hab.trans hba) (PathLt.irrefl a)) hsorted hfiles ?_
  refine (List.perm_ext_iff_of_nodup (hsorted.imp hne) (hfiles.imp hne)).mpr fun ⟨names, content⟩ => ?_
  rw [mem_sortedSources, hmem]

/-- The name of what is at a path. -/
def nameOf (p : Path) : String := String.ofList (p.pieces.getLast?.getD [])

theorem sourceTexts_eq (hp : w.at? p = .ok t) :
    w.sourceTexts p = (sortedSources (nameOf p) t).filterMap fun file => file.2.toString? := by
  rw [sourceTexts, hp]
  rfl

theorem sourceTexts_relisted (hp : w.at? p = .ok t) (hp' : w'.at? p = .ok t') (hlisted : t.Relisted t')
    (hdistinct : t.Distinct) : w.sourceTexts p = w'.sourceTexts p := by
  rw [sourceTexts_eq hp, sourceTexts_eq hp']
  refine congrArg _ (sortedSources_eq hdistinct (pairwise_sortedSources (hdistinct.relisted hlisted)) ?_)
  intro names content
  rw [mem_sortedSources, hlisted.holds_iff]

end Workspace

namespace Replay.PartyHints

/-! ## Hints -/

/-- The hint for a name is the first party of its earliest declaration with one, a hint that is there stays,
and a scan adds the source files of a directory in the order of their paths, however they are listed. -/
theorem earliest_party :
    (∀ texts name party,
      ((ofTexts texts).forAction? name = some party ↔ EarliestParty actionWords texts name party)
        ∧ ((ofTexts texts).forConstructor? name = some party ↔ EarliestParty protocolWords texts name party))
      ∧ (∀ words, words = actionWords ∨ words = protocolWords →
        ∀ text : String, ∃! ds, Leftmost words [] text.toList ds)
      ∧ (∀ (hints : PartyHints) (text name party : String),
        (hints.forAction? name = some party → (hints.addSource text).forAction? name = some party)
          ∧ (hints.forConstructor? name = some party → (hints.addSource text).forConstructor? name = some party))
      ∧ (∀ (w : Workspace) (p : Path) (t : FileTree), w.at? p = .ok t → t.Distinct →
        ∃ files : List (List String × Bytes), files.Pairwise Workspace.PathLt
          ∧ (∀ names content,
            (names, content) ∈ files ↔ t.Holds names content ∧ FileTree.IsSource (Workspace.nameOf p) names)
          ∧ scan w p = ofTexts (files.filterMap fun file => file.2.toString?))
      ∧ (∀ (w w' : Workspace) (p : Path) (t t' : FileTree), w.at? p = .ok t → w'.at? p = .ok t' →
        t.Relisted t' → t.Distinct → scan w p = scan w' p) := by
  refine ⟨fun texts name party => ⟨forAction?_ofTexts texts, forConstructor?_ofTexts texts⟩, ?_,
    fun hints text name party => ⟨forAction?_addSource text, forConstructor?_addSource text⟩, ?_, ?_⟩
  · intro words hwords text
    have hkeywords : Keywords words := by
      rcases hwords with rfl | rfl
      · exact Declaration.keywords_action
      · exact Declaration.keywords_protocol
    exact ⟨declarations words text, (Declaration.declarations_eq_iff hkeywords).mp rfl,
      fun ds hds => ((Declaration.declarations_eq_iff hkeywords).mpr hds).symm⟩
  · intro w p t hp hdistinct
    refine ⟨Workspace.sortedSources (Workspace.nameOf p) t, Workspace.pairwise_sortedSources hdistinct,
      fun names content => Workspace.mem_sortedSources, ?_⟩
    rw [← Workspace.sourceTexts_eq hp]
    rfl
  · intro w w' p t t' hp hp' hlisted hdistinct
    exact congrArg ofTexts (Workspace.sourceTexts_relisted hp hp' hlisted hdistinct)

/-- A source with a declaration whose parties are blank, and another one of the same name. -/
def twoDeclarations : FileTree := .file (Bytes.ofString "permission[ | ]pay( permission[payee|issuer] pay (")

/-- A source without declarations. -/
def noDeclaration : FileTree := .file (Bytes.ofString "repermission[issuer]pay(")

theorem earliest_party_pay :
    scan ⟨.directory [("a.npl", noDeclaration), ("b.npl", twoDeclarations)], []⟩ (.ofString "/")
        = scan ⟨.directory [("b.npl", twoDeclarations), ("a.npl", noDeclaration)], []⟩ (.ofString "/")
      ∧ EarliestParty actionWords ["repermission[issuer]pay(", "permission[ | ]pay( permission[payee|issuer] pay ("]
        "pay" "payee" := by
  obtain ⟨hhint, -, -, -, hscan⟩ := earliest_party
  refine ⟨hscan _ _ _ (.directory [("a.npl", noDeclaration), ("b.npl", twoDeclarations)])
    (.directory [("b.npl", twoDeclarations), ("a.npl", noDeclaration)]) (by rfl) (by rfl) (.swap _ _ _) ?_, ?_⟩
  · exact .entry (.file _) (by decide) (.entry (.file _) (by decide) .empty)
  · exact (hhint _ _ _).1.mp (by decide)

end Replay.PartyHints

end AuditTrail
