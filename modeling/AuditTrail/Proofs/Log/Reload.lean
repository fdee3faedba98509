import AuditTrail.Log.Chain
import AuditTrail.Log.Structure
import AuditTrail.Proofs.Log.Wire
import AuditTrail.Signature.Check

/-!
# Logs written again

A text may spell a log in many ways: fields left out or in another order, records as arrays, fields that no
log has. Its wire text spells it in one way. What has to be seen is that the second reading is not stricter
than the first, and only one thing could make it so: what was left out takes room when it is written.

> A log is written with no more depth than there was room to read it (`Log.depth_of_ofText?`).

The rest is that a log that was read is one that can be read back (`Log.parse_wire`).
-/

namespace AuditTrail

namespace Json.Tree

/-! ## Room -/

/-- What a reader gets is written with no more depth than it had room, if it had as much as the defaults
take. -/
def Depths {α : Type} (read : (room : Nat) → Tree → Option α) (tree : α → Tree) (least : Nat) : Prop :=
  ∀ room t a, least ≤ room → read room t = some a → (tree a).depth ≤ room

theorem record?_eq_some {names : List String} {room : Nat} {t : Tree} {inner : Nat} {field : FieldMap}
    (h : t.record? names room = some (inner, field)) : room = inner + 1 := by
  cases t with
  | object _ | array _ =>
    simp only [record?, Option.bind_eq_bind, Option.bind_eq_some_iff] at h
    obtain ⟨inner', henter, hfound⟩ := h
    split at hfound
    · rw [enter?_eq_some henter, (Prod.mk.inj (Option.some.inj hfound)).1]
    · exact absurd hfound (by simp)
  | _ => exact absurd h (by simp [record?])

section

variable {α : Type} {read : (room : Nat) → Tree → Option α} {tree : α → Tree} {least room : Nat}

theorem Depths.mono (h : Depths read tree least) {more : Nat} (hmore : least ≤ more) :
    Depths read tree more :=
  fun room t a hroom hread => h room t a (Nat.le_trans hmore hroom) hread

theorem depths_text : Depths (fun _ => text?) ofText 0 := fun _ _ _ _ _ => Nat.zero_le _

theorem depths_value : Depths value? wireTree 0 :=
  fun _ _ _ _ hread => depth_wireTree.mpr (wellFormed_of_value? hread).2

theorem depths_members : Depths members? (fun members => wireTree (.object members)) 0 :=
  fun _ _ _ _ hread => depth_wireTree.mpr (wellFormed_of_value? (value?_of_members? hread)).2

theorem Depths.list (h : Depths read tree least) :
    Depths (list? read) (fun items => .array (items.map tree)) (least + 1) := by
  intro room t found hroom hread
  obtain ⟨inner, rfl, hitems⟩ := list?_eq_some hread
  refine depth_array.mpr ⟨inner, rfl, ?_⟩
  intro u hu
  obtain ⟨a, ha, rfl⟩ := List.mem_map.mp hu
  obtain ⟨t', ht'⟩ := hitems a ha
  exact h inner t' a (Nat.le_of_succ_le_succ hroom) ht'

/-- In a field the default has to fit as well. -/
theorem Depths.field (h : Depths read tree least) (hroom : least ≤ room) {default : α}
    (hdefault : (tree default).depth ≤ least) {slot : Option (Option Tree)} {a : α}
    (hread : orElse? default (read room) slot = some a) : (tree a).depth ≤ room := by
  rcases orElse?_cases hread with rfl | ⟨t, ht⟩
  · exact Nat.le_trans hdefault hroom
  · exact h room t a hroom ht

end

end Json.Tree

open Json.Tree (Depths depth_ofFields depths_members depths_text depths_value record?_eq_some)

/-! ## Logs

Each part of a log names the room that its defaults take: an action without parameters takes two places, and
an entry around it one more. -/

theorem Action.depths_tree : Depths Action.ofTree? Action.tree 2 := by
  intro room t a hroom h
  simp only [Action.ofTree?, Option.bind_eq_bind, Option.bind_eq_some_iff, Option.some.injEq] at h
  obtain ⟨⟨inner, field⟩, hrecord, kind, _, name, _, parameters, hparameters, rfl⟩ := h
  obtain rfl := record?_eq_some hrecord
  have hdepth := (depths_members.mono (Nat.zero_le 1)).field (Nat.le_of_succ_le_succ hroom) (by decide)
    hparameters
  refine depth_ofFields.mpr ⟨inner, rfl, ?_⟩
  cases kind with
  | none => simpa [Json.Tree.ofText, Json.Tree.depth] using hdepth
  | some k => simpa [Json.Tree.ofText, Json.Tree.depth] using hdepth

theorem Proof.depths_tree : Depths Proof.ofTree? Proof.tree 1 := by
  intro room t p hroom _
  obtain ⟨inner, rfl⟩ := Nat.exists_eq_add_of_le' hroom
  refine depth_ofFields.mpr ⟨inner, rfl, ?_⟩
  simp [Json.Tree.ofText, Json.Tree.depth]

theorem Entry.depths_tree : Depths Entry.ofTree? Entry.tree 3 := by
  intro room t e hroom h
  simp only [Entry.ofTree?, Option.bind_eq_bind, Option.bind_eq_some_iff, Option.some.injEq] at h
  obtain ⟨⟨inner, field⟩, hrecord, id, _, timestamp, _, action, haction, hashes, hhashes, stateHash, _,
    previousHash, _, proof, hproof, rfl⟩ := h
  obtain rfl := record?_eq_some hrecord
  have hinner : 2 ≤ inner := Nat.le_of_succ_le_succ hroom
  have hactionDepth := Action.depths_tree.field hinner (by decide) haction
  have hhashesDepth := depths_text.list.field (Nat.le_of_succ_le hinner) (by decide) hhashes
  have hproofDepth := Proof.depths_tree.field (Nat.le_of_succ_le hinner) (by decide) hproof
  have hprevious : (Json.Tree.ofText? previousHash).depth = 0 := by cases previousHash <;> rfl
  refine depth_ofFields.mpr ⟨inner, rfl, ?_⟩
  simp only [List.forall_mem_cons]
  exact ⟨Nat.zero_le _, Nat.zero_le _, hactionDepth, hhashesDepth, Nat.zero_le _,
    hprevious ▸ Nat.zero_le _, hproofDepth, List.forall_mem_nil _⟩

theorem Log.depths_tree : Depths Log.ofTree? Log.tree 5 := by
  intro room t l hroom h
  simp only [Log.ofTree?, Option.bind_eq_bind, Option.bind_eq_some_iff, Option.some.injEq] at h
  obtain ⟨⟨inner, field⟩, hrecord, entries, hentries, state, hstate, rfl⟩ := h
  obtain rfl := record?_eq_some hrecord
  have hinner : 4 ≤ inner := Nat.le_of_succ_le_succ hroom
  have hentriesDepth := Entry.depths_tree.list.field hinner (by decide) hentries
  have hstateDepth := (depths_value.mono (Nat.zero_le 1)).field (Nat.le_trans (by decide) hinner)
    (by decide) hstate
  refine depth_ofFields.mpr ⟨inner, rfl, ?_⟩
  simp only [List.forall_mem_cons]
  exact ⟨hentriesDepth, hstateDepth, List.forall_mem_nil _⟩

/-- **A log is written with no more depth than there was room to read it.** -/
theorem Log.depth_of_ofText? {text : String} {l : Log} (h : Log.ofText? text = some l) :
    l.tree.depth ≤ Json.Tree.maxDepth := by
  simp only [Log.ofText?, Json.readAs?, Option.bind_eq_bind, Option.bind_eq_some_iff] at h
  obtain ⟨t, _, hread⟩ := h
  exact Log.depths_tree _ t l (by decide) hread

theorem Log.parse_eq_ok {source text : String} {l : Log} :
    Log.parse source text = .ok l ↔ Log.ofText? text = some l := by
  unfold Log.parse
  cases Log.ofText? text with
  | none => simp
  | some found => simp

/-- **A log that was read survives being written and read again.** -/
theorem Log.parse_reload {source text : String} {l : Log} (h : Log.parse source text = .ok l)
    (source' : String) : ∃ again, Log.parse source' l.wire = .ok again ∧ again = l ∧ again.wire = l.wire
      ∧ again.entries.map Entry.hash = l.entries.map Entry.hash
      ∧ structureFindings again = structureFindings l ∧ chainFindings again.entries = chainFindings l.entries
      ∧ stateFindings again = stateFindings l
      ∧ ∀ {m : Type → Type} [Monad m] (scheme : Signature.Scheme) (resolve : Signature.Resolver m)
        (failFast : Bool), Signature.proofFindings scheme resolve failFast again.entries
          = Signature.proofFindings scheme resolve failFast l.entries := by
  have htext := Log.parse_eq_ok.mp h
  have hreload := Log.parse_wire (Log.wellFormed_of_ofText? htext) (Log.depth_of_ofText? htext) source'
  exact ⟨l, hreload, rfl, rfl, rfl, rfl, rfl, rfl, fun _ _ _ => rfl⟩

/-- A text of many spellings: a field that no log has, an entry as an array that breaks off, members out of
order, a kind as an object, a kind and a previous hash that are null, and numbers at the ends of their ranges,
as deep as a reader follows them. -/
def Log.motleyChars : List Char :=
  "\x7b\"x\":[1e999,\"\\ud800\"],\"audit_log\":[".toList
  ++ "[\"a\",\"\",\x7b\"name\":\"pay\",".toList
  ++ "\"parameters\":\x7b\"b\":0.50,\"a\":1e2\x7d,".toList
  ++ "\"type\":\x7b\"permission\":null\x7d\x7d],".toList
  ++ "\x7b\"previousHash\":null,\"action\":\x7b\"type\":null\x7d\x7d],\"state\":".toList
  ++ List.replicate 126 '[' ++ "-0,-9223372036854775808,18446744073709551615".toList
  ++ List.replicate 126 ']' ++ ['\x7d']

/-- The same as one text. -/
def Log.motley : String := .ofList Log.motleyChars

theorem Log.toList_motley : Log.motley.toList = Log.motleyChars := String.toList_ofList

/-- It is read, it is not how the log is written, and what is written is read as the same log. -/
theorem Log.parse_reload_motley : ∃ l, Log.parse "first" Log.motley = .ok l
    ∧ l.entries.map (·.action.kind) = [some .permission, none] ∧ l.tree.depth = Json.Tree.maxDepth
    ∧ l.wire ≠ Log.motley ∧ ∃ again, Log.parse "second" l.wire = .ok again ∧ again = l
      ∧ again.wire = l.wire ∧ again.entries.map Entry.hash = l.entries.map Entry.hash := by
  have hfacts : (Log.ofText? Log.motley).map (fun l => (l.entries.map (·.action.kind), l.tree.depth,
      decide (l.tree.chars = Log.motleyChars))) = some ([some .permission, none], 127, false) := by
    rw [Log.ofText?, Json.readAs?, Json.Tree.read?, Log.toList_motley]
    decide +kernel
  obtain ⟨l, htext, hfacts⟩ := Option.map_eq_some_iff.mp hfacts
  simp only [Prod.mk.injEq, decide_eq_false_iff_not] at hfacts
  obtain ⟨hkinds, hdepth, hchars⟩ := hfacts
  have hparse : Log.parse "first" Log.motley = .ok l := Log.parse_eq_ok.mpr htext
  have hwire : l.wire ≠ Log.motley := by
    intro heq
    rw [← Log.toList_motley, ← heq, Log.wire, Json.Tree.text, String.toList_ofList] at hchars
    exact hchars rfl
  obtain ⟨again, hagain, hsame, htexts, hhashes, _⟩ := Log.parse_reload hparse "second"
  exact ⟨l, hparse, hkinds, hdepth, hwire, again, hagain, hsame, htexts, hhashes⟩

end AuditTrail
