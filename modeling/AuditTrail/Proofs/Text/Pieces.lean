import AuditTrail.Text.Pieces
import Mathlib.Order.Lattice

/-!
# Separators

A text that is cut at a separator is its pieces joined by the separator, and no piece has the
separator in it. These two facts fix the pieces (`piecesAt_joinWith`), so a grammar that is given by
separators can be stated by how a text is put together (`piecesAt_eq_iff`, `cutAt?_eq_some`).

Replacing a text in which the separator does not occur is a matter of the pieces too, as long as it is a
whole piece wherever it occurs (`replaceAll_joinWith`).
-/

namespace AuditTrail.Text

variable {sep : Char} {text : List Char}

theorem dropStart?_eq_some {start rest : List Char} :
    dropStart? start text = some rest ↔ text = start ++ rest := by
  induction start generalizing text with
  | nil => simp [dropStart?, eq_comm]
  | cons s start ih =>
    cases text with
    | nil => simp [dropStart?]
    | cons c text =>
      rw [dropStart?, List.cons_append, List.cons.injEq]
      by_cases hc : s = c
      · simp [hc, ih]
      · simp [hc, Ne.symm hc]

theorem cutAt?_eq_some {before after : List Char} :
    cutAt? sep text = some (before, after) ↔ text = before ++ sep :: after ∧ sep ∉ before := by
  induction text generalizing before with
  | nil => simp [cutAt?]
  | cons c text ih =>
    rw [cutAt?]
    by_cases hc : c = sep
    · -- A text that begins with the separator has nothing in front of it.
      cases before with
      | nil => simp [hc]
      | cons b before =>
        rw [if_pos hc, hc]
        simp only [Option.some.injEq, Prod.mk.injEq, List.cons_append, List.cons.injEq,
          List.mem_cons, not_or]
        exact ⟨fun h => absurd h.1 (by simp), fun h => absurd h.1.1 h.2.1⟩
    · cases before with
      | nil => simp [hc, Option.map_eq_some_iff]
      | cons b before =>
        rw [if_neg hc, Option.map_eq_some_iff]
        simp only [Prod.exists, Prod.mk.injEq, List.cons.injEq, List.cons_append, List.mem_cons,
          not_or]
        constructor
        · rintro ⟨before', after', hcut, ⟨rfl, rfl⟩, rfl⟩
          obtain ⟨htext, hsep⟩ := ih.mp hcut
          exact ⟨⟨rfl, htext⟩, Ne.symm hc, hsep⟩
        · rintro ⟨⟨rfl, htext⟩, _, hsep⟩
          exact ⟨before, after, ih.mpr ⟨htext, hsep⟩, ⟨rfl, rfl⟩, rfl⟩

theorem cutAt?_eq_none : cutAt? sep text = none ↔ sep ∉ text := by
  induction text with
  | nil => simp [cutAt?]
  | cons c text ih =>
    rw [cutAt?]
    by_cases hc : c = sep
    · simp [hc]
    · simp [hc, ih, Ne.symm hc]

/-- What stands before the first separator, if nothing but the separator can come after it. -/
theorem before_append {front rest : List Char} (hfront : sep ∉ front) (hrest : ∀ c ∈ rest.head?, c = sep) :
    before sep (front ++ rest) = front := by
  have hnot : ∀ c ∈ front, (c != sep) = true := fun c hc => bne_iff_ne.mpr fun heq => hfront (heq ▸ hc)
  rw [before, List.takeWhile_append_of_pos hnot]
  cases rest with
  | nil => simp
  | cons c rest => simp [hrest c rfl]

/-- A text is what stands before its first separator, and nothing or the separator comes after it. -/
theorem exists_before (sep : Char) (text : List Char) :
    ∃ rest, text = before sep text ++ rest ∧ sep ∉ before sep text ∧ ∀ c ∈ rest.head?, c = sep := by
  refine ⟨text.dropWhile (· != sep), List.takeWhile_append_dropWhile.symm, fun hmem => ?_, fun c hc => ?_⟩
  · simpa using List.all_eq_true.mp List.all_takeWhile sep hmem
  · have hhead := List.head?_dropWhile_not (· != sep) text
    rw [Option.mem_def.mp hc] at hhead
    simpa using hhead

/-! ## Pieces -/

theorem pieces_eq (isSep : Char → Bool) (text : List Char) :
    pieces isSep text = text.splitOnP isSep := by
  induction text with
  | nil => rfl
  | cons c text ih =>
    rw [pieces, ih, List.splitOnP_cons_eq_if_modifyHead]
    -- There is always a first piece, which the character in front of the text belongs to.
    cases hpieces : text.splitOnP isSep with
    | nil => exact absurd hpieces (List.splitOnP_ne_nil isSep text)
    | cons first more => rfl

theorem piecesAt_eq (sep : Char) (text : List Char) : piecesAt sep text = text.splitOn sep := by
  rw [piecesAt, pieces_eq, List.splitOn_eq_splitOnP]

/-- A text is its pieces, joined by the separator. -/
theorem joinWith_piecesAt (sep : Char) (text : List Char) :
    joinWith sep (piecesAt sep text) = text := by
  rw [piecesAt_eq]
  exact List.intercalate_splitOn sep

theorem piecesAt_ne_nil (sep : Char) (text : List Char) : piecesAt sep text ≠ [] := by
  rw [piecesAt_eq]
  exact List.splitOn_ne_nil sep text

/-- Pieces without the separator in them are what a text joined from them is cut into. -/
theorem piecesAt_joinWith {parts : List (List Char)} (hparts : parts ≠ [])
    (h : ∀ part ∈ parts, sep ∉ part) : piecesAt sep (joinWith sep parts) = parts := by
  rw [piecesAt_eq]
  exact List.splitOn_intercalate sep h hparts

/-- No piece has the separator in it. -/
theorem not_mem_of_mem_pieces {isSep : Char → Bool} {piece : List Char}
    (h : piece ∈ pieces isSep text) : ∀ c ∈ piece, isSep c = false := by
  induction text generalizing piece with
  | nil =>
    rw [List.mem_singleton.mp h]
    simp
  | cons c text ih =>
    rw [pieces] at h
    cases hc : isSep c with
    | true =>
      rw [hc, if_pos rfl] at h
      rcases List.mem_cons.mp h with rfl | h
      · simp
      · exact ih h
    | false =>
      rw [hc, if_neg Bool.false_ne_true] at h
      cases hpieces : pieces isSep text with
      | nil =>
        rw [hpieces] at h
        rw [List.mem_singleton.mp h]
        simpa using hc
      | cons first more =>
        rw [hpieces] at h ih
        rcases List.mem_cons.mp h with rfl | h
        · exact List.forall_mem_cons.mpr ⟨hc, ih List.mem_cons_self⟩
        · exact ih (List.mem_cons_of_mem _ h)

theorem not_mem_of_mem_piecesAt {piece : List Char} (h : piece ∈ piecesAt sep text) :
    sep ∉ piece := by
  intro hmem
  simpa using not_mem_of_mem_pieces h sep hmem

/-- **What a text is cut into.** -/
theorem piecesAt_eq_iff {parts : List (List Char)} (hparts : parts ≠ []) :
    piecesAt sep text = parts ↔ text = joinWith sep parts ∧ ∀ part ∈ parts, sep ∉ part := by
  constructor
  · rintro rfl
    exact ⟨(joinWith_piecesAt sep text).symm, fun part => not_mem_of_mem_piecesAt⟩
  · rintro ⟨rfl, h⟩
    exact piecesAt_joinWith hparts h

theorem joinWith_cons_cons (sep : Char) (part next : List Char) (more : List (List Char)) :
    joinWith sep (part :: next :: more) = part ++ sep :: joinWith sep (next :: more) := by
  simp [joinWith, List.intercalate]

theorem mem_joinWith {parts : List (List Char)} {c : Char} (h : c ∈ joinWith sep parts) :
    c = sep ∨ ∃ part ∈ parts, c ∈ part := by
  induction parts with
  | nil => simp [joinWith, List.intercalate] at h
  | cons part more ih =>
    cases more with
    | nil =>
      right
      exact ⟨part, List.mem_singleton_self part, by simpa [joinWith, List.intercalate] using h⟩
    | cons next more =>
      rw [joinWith_cons_cons, List.mem_append, List.mem_cons] at h
      rcases h with h | h | h
      · exact Or.inr ⟨part, List.mem_cons_self, h⟩
      · exact Or.inl h
      · exact (ih h).imp_right fun ⟨part, hpart, hc⟩ => ⟨part, List.mem_cons_of_mem _ hpart, hc⟩

theorem mem_joinWith_of_mem {parts : List (List Char)} {part : List Char} (h : part ∈ parts) {c : Char}
    (hc : c ∈ part) : c ∈ joinWith sep parts := by
  induction parts with
  | nil => exact absurd h List.not_mem_nil
  | cons first more ih =>
    cases more with
    | nil =>
      obtain rfl := List.mem_singleton.mp h
      simpa [joinWith, List.intercalate] using hc
    | cons next more =>
      rw [joinWith_cons_cons]
      rcases List.mem_cons.mp h with rfl | h
      · exact List.mem_append_left _ hc
      · exact List.mem_append_right _ (List.mem_cons_of_mem _ (ih h))

theorem joinWith_concat {parts : List (List Char)} (hparts : parts ≠ []) (last : List Char) :
    joinWith sep (parts ++ [last]) = joinWith sep parts ++ sep :: last := by
  induction parts with
  | nil => exact absurd rfl hparts
  | cons part more ih =>
    cases more with
    | nil => simp [joinWith, List.intercalate]
    | cons next more =>
      rw [List.cons_append, List.cons_append, joinWith_cons_cons, joinWith_cons_cons,
        ← List.cons_append, ih (by simp)]
      simp

/-- What follows the last separator is the last piece. -/
theorem piecesAt_append {last : List Char} (h : sep ∉ last) (front : List Char) :
    piecesAt sep (front ++ sep :: last) = piecesAt sep front ++ [last] := by
  rw [piecesAt_eq_iff (by simp), joinWith_concat (piecesAt_ne_nil sep front), joinWith_piecesAt]
  refine ⟨rfl, ?_⟩
  intro part hpart
  rcases List.mem_append.mp hpart with hpart | hpart
  · exact not_mem_of_mem_piecesAt hpart
  · rwa [List.mem_singleton.mp hpart]

/-- What stands before the last separator and what follows it. -/
theorem append_sep_injective {front last front' last' : List Char} (h : sep ∉ last) (h' : sep ∉ last')
    (heq : front ++ sep :: last = front' ++ sep :: last') : front = front' ∧ last = last' := by
  have hpieces := congrArg (piecesAt sep) heq
  rw [piecesAt_append h, piecesAt_append h'] at hpieces
  obtain ⟨hfronts, hlast⟩ := List.append_inj' hpieces rfl
  refine ⟨?_, List.head_eq_of_cons_eq hlast⟩
  rw [← joinWith_piecesAt sep front, hfronts, joinWith_piecesAt]

/-! ## Replacing -/

section

variable {old new : List Char}

theorem startsWith_iff {start : List Char} : startsWith start text = true ↔ start <+: text := by
  rw [startsWith, Option.isSome_iff_exists]
  simp only [dropStart?_eq_some]
  exact ⟨fun ⟨rest, h⟩ => ⟨rest, h.symm⟩, fun ⟨rest, h⟩ => ⟨rest, h.symm⟩⟩

theorem replaceFrom_skip (skip : Nat) (text : List Char) :
    replaceFrom old new skip text = replaceFrom old new 0 (text.drop skip) := by
  induction skip generalizing text with
  | zero => rfl
  | succ skip ih =>
    cases text with
    | nil => rfl
    | cons c text => rw [replaceFrom, ih, List.drop_succ_cons]

theorem replaceFrom_cons {c : Char} (h : ¬ old <+: c :: text) :
    replaceFrom old new 0 (c :: text) = c :: replaceFrom old new 0 text := by
  rw [replaceFrom, if_neg (by rwa [startsWith_iff])]

/-- An occurrence at the front is replaced. -/
theorem replaceFrom_append (hold : old ≠ []) (text : List Char) :
    replaceFrom old new 0 (old ++ text) = new ++ replaceFrom old new 0 text := by
  cases hcons : old with
  | nil => exact absurd hcons hold
  | cons c rest =>
    have hstart : startsWith (c :: rest) (c :: (rest ++ text)) = true :=
      startsWith_iff.mpr ⟨text, rfl⟩
    rw [List.cons_append, replaceFrom, if_pos hstart, replaceFrom_skip]
    simp

/-- A piece is replaced if it is the old text, and left as it is if the old text does not occur in it.
What follows begins with a character that the old text does not have, so it does not reach across. -/
theorem replaceFrom_piece {piece rest : List Char} (hold : old ≠ [])
    (hpiece : piece = old ∨ ¬ old <:+: piece) (hrest : ∀ c ∈ rest.head?, c ∉ old) :
    replaceFrom old new 0 (piece ++ rest)
      = (if piece = old then new else piece) ++ replaceFrom old new 0 rest := by
  rcases hpiece with rfl | hpiece
  · rw [if_pos rfl, replaceFrom_append hold]
  · have hne : piece ≠ old := fun heq => hpiece (heq ▸ List.infix_rfl)
    rw [if_neg hne]
    clear hne
    induction piece with
    | nil => rfl
    | cons c piece ih =>
      have hfront : ¬ old <+: c :: (piece ++ rest) := by
        intro hprefix
        rcases List.prefix_or_prefix_of_prefix hprefix
          (show c :: piece <+: c :: (piece ++ rest) from ⟨rest, rfl⟩) with hshort | ⟨beyond, rfl⟩
        · exact hpiece hshort.isInfix
        · cases beyond with
          | nil => exact hpiece ⟨[], [], by simp⟩
          | cons d beyond =>
            obtain ⟨more, hmore⟩ := hprefix
            have htail : rest = d :: (beyond ++ more) := by simpa using hmore.symm
            exact hrest d (by simp [htail]) (by simp)
      rw [List.cons_append, replaceFrom_cons hfront, List.cons_append,
        ih fun hoccurs => hpiece (hoccurs.trans (List.suffix_cons c piece).isInfix)]

theorem replaceAll_eq (hold : old ≠ []) (text : List Char) :
    replaceAll old new text = replaceFrom old new 0 text := by
  cases old with
  | nil => exact absurd rfl hold
  | cons c rest => rfl

theorem replaceAll_piece {piece : List Char} (hpiece : piece = old ∨ ¬ old <:+: piece) :
    replaceAll old new piece = if piece = old then new else piece := by
  by_cases hold : old = []
  -- The empty text occurs everywhere, so the piece is empty too.
  · subst hold
    obtain rfl : piece = [] := hpiece.resolve_right fun h => h List.nil_infix
    simp [replaceAll]
  · have hfrom := @replaceFrom_piece old new piece [] hold hpiece (by simp)
    rwa [List.append_nil, replaceFrom, List.append_nil, ← replaceAll_eq hold] at hfrom

theorem replaceFrom_joinWith {parts : List (List Char)} (hold : old ≠ []) (hsep : sep ∉ old)
    (hparts : ∀ part ∈ parts, part = old ∨ ¬ old <:+: part) :
    replaceFrom old new 0 (joinWith sep parts)
      = joinWith sep (parts.map fun part => if part = old then new else part) := by
  induction parts with
  | nil => rfl
  | cons part more ih =>
    obtain ⟨hpart, hmore⟩ := List.forall_mem_cons.mp hparts
    cases more with
    | nil =>
      rw [← replaceAll_eq hold]
      simpa [joinWith, List.intercalate] using replaceAll_piece hpart
    | cons next more =>
      have hnot : ¬ old <+: sep :: joinWith sep (next :: more) := by
        rintro ⟨rest, hrest⟩
        cases hcons : old with
        | nil => exact hold hcons
        | cons c _ =>
          rw [hcons, List.cons_append, List.cons.injEq] at hrest
          exact hsep (by simp [hcons, hrest.1])
      rw [joinWith_cons_cons, replaceFrom_piece hold hpart (by simpa using hsep),
        replaceFrom_cons hnot, ih hmore, List.map_cons, List.map_cons, List.map_cons,
        joinWith_cons_cons]

/-- The empty text stands before, between and after separators that nothing else stands between. -/
theorem replaceAll_nil_joinWith {parts : List (List Char)} (hne : parts ≠ [])
    (hparts : ∀ part ∈ parts, part = []) :
    replaceAll [] new (joinWith sep parts) = joinWith sep (parts.map fun _ => new) := by
  induction parts with
  | nil => exact absurd rfl hne
  | cons part more ih =>
    obtain ⟨rfl, hmore⟩ := List.forall_mem_cons.mp hparts
    cases more with
    | nil => simp [replaceAll, joinWith, List.intercalate]
    | cons next more =>
      have hrest := ih (by simp) hmore
      rw [replaceAll] at hrest
      rw [joinWith_cons_cons, replaceAll, List.nil_append, List.flatMap_cons, List.cons_append, hrest,
        List.map_cons, List.map_cons, List.map_cons, joinWith_cons_cons]

/-- **Whole pieces are replaced.** -/
theorem replaceAll_joinWith {parts : List (List Char)} (hne : parts ≠ []) (hsep : sep ∉ old)
    (hparts : ∀ part ∈ parts, part = old ∨ ¬ old <:+: part) :
    replaceAll old new (joinWith sep parts)
      = joinWith sep (parts.map fun part => if part = old then new else part) := by
  by_cases hold : old = []
  · subst hold
    have hempty : ∀ part ∈ parts, part = [] := fun part hpart =>
      (hparts part hpart).resolve_right fun h => h List.nil_infix
    rw [replaceAll_nil_joinWith hne hempty]
    congr 1
    exact List.map_congr_left fun part hpart => (if_pos (hempty part hpart)).symm
  · rw [replaceAll_eq hold, replaceFrom_joinWith hold hsep hparts]

end

/-! ## Lexicographic order -/

section

variable {α : Type} [LinearOrder α]

theorem lexLe_iff {a b : List α} :
    lexLe (fun x y => decide (x < y)) a b = true ↔ a = b ∨ List.Lex (· < ·) a b := by
  induction a generalizing b with
  | nil => cases b <;> simp [lexLe]
  | cons x a ih =>
    cases b with
    | nil => simp [lexLe]
    | cons y b =>
      simp only [lexLe, Bool.or_eq_true, decide_eq_true_eq, Bool.and_eq_true, Bool.not_eq_true',
        decide_eq_false_iff_not, ih, List.cons.injEq, List.cons_lex_cons_iff]
      by_cases hxy : x = y
      · simp [hxy]
      · have hgt : ¬ y < x ↔ x < y := not_lt.trans ⟨fun hle => lt_of_le_of_ne hle hxy, le_of_lt⟩
        simp only [hxy, hgt, false_and, or_false, false_or]
        exact or_iff_left_of_imp And.left

/-- Of two lists that are not the same, one comes first. -/
theorem lexLe_total (a b : List α) :
    (lexLe (fun x y => decide (x < y)) a b || lexLe (fun x y => decide (x < y)) b a) = true := by
  induction a generalizing b with
  | nil => simp [lexLe]
  | cons x a ih =>
    cases b with
    | nil => simp [lexLe]
    | cons y b =>
      have hrest := ih b
      simp only [lexLe, Bool.or_eq_true, decide_eq_true_eq, Bool.and_eq_true, Bool.not_eq_true',
        decide_eq_false_iff_not] at hrest ⊢
      rcases lt_trichotomy x y with hlt | rfl | hgt
      · exact Or.inl (Or.inl hlt)
      · exact hrest.imp (fun h => Or.inr ⟨lt_irrefl x, h⟩) fun h => Or.inr ⟨lt_irrefl x, h⟩
      · exact Or.inr (Or.inl hgt)

end

end AuditTrail.Text
