import AuditTrail.Identity
import AuditTrail.Proofs.Text.Bytes
import AuditTrail.Proofs.Text.Pieces

/-!
# Writing an instance id

An instance id is written as its digits in five groups with hyphens between them. Reading the text gives
the id again (`Uuid.parse?_chars`), and it can be a segment of a path, with no slash and no sign of an index
in it.
-/

namespace AuditTrail

namespace Uuid

variable {u : Uuid}

theorem digit?_hexDigit : ∀ d : Fin 16, digit? (Bytes.hexDigit d.val) = some d := by decide

theorem mapM_digit? (digits : List (Fin 16)) :
    (digits.map fun d => Bytes.hexDigit d.val).mapM digit? = some digits := by
  induction digits with
  | nil => rfl
  | cons d rest ih => rw [List.map_cons, List.mapM_cons, digit?_hexDigit, ih]; rfl

theorem ofDigitChars?_digits : ofDigitChars? (u.digits.map fun d => Bytes.hexDigit d.val) = some u := by
  unfold ofDigitChars?
  rw [mapM_digit?]
  exact dif_pos u.length_digits

theorem length_group {start length : Nat} (h : start + length ≤ 32) :
    (u.group start length).length = length := by
  have hdigits := u.length_digits
  simp only [group, List.length_map, List.length_take, List.length_drop]
  omega

/-- Digits are neither hyphens nor slashes nor the sign of an index. -/
theorem hexDigit_ne : ∀ d : Fin 16, Bytes.hexDigit d.val ≠ '-' ∧ Bytes.hexDigit d.val ≠ '/'
    ∧ Bytes.hexDigit d.val ≠ '#' := by decide

theorem mem_group {start length : Nat} {c : Char} (h : c ∈ u.group start length) :
    c ≠ '-' ∧ c ≠ '/' ∧ c ≠ '#' := by
  obtain ⟨d, _, rfl⟩ := List.mem_map.mp h
  exact hexDigit_ne d

/-- The groups of an id, in order. -/
def groups (u : Uuid) : List (List Char) :=
  [u.group 0 8, u.group 8 4, u.group 12 4, u.group 16 4, u.group 20 12]

theorem mem_groups {group : List Char} (h : group ∈ u.groups) {c : Char} (hc : c ∈ group) :
    c ≠ '-' ∧ c ≠ '/' ∧ c ≠ '#' := by
  simp only [groups, List.mem_cons, List.not_mem_nil, or_false] at h
  rcases h with rfl | rfl | rfl | rfl | rfl
  all_goals exact mem_group hc

theorem group_append {start length more : Nat} :
    u.group start length ++ u.group (start + length) more = u.group start (length + more) := by
  unfold group
  rw [← List.map_append, List.take_add, List.drop_drop]

theorem ofHyphenated?_chars : ofHyphenated? u.chars = some u := by
  have hpieces : Text.piecesAt '-' u.chars = u.groups :=
    Text.piecesAt_joinWith (by simp) fun group hgroup hmem => (mem_groups hgroup hmem).1 rfl
  have hlengths : u.groups.map List.length = [8, 4, 4, 4, 12] := by
    simp [groups, length_group]
  have hjoined : u.group 0 8 ++ u.group 8 4 ++ u.group 12 4 ++ u.group 16 4 ++ u.group 20 12
      = u.digits.map fun d => Bytes.hexDigit d.val := by
    rw [group_append, group_append, group_append, group_append, group, List.drop_zero,
      List.take_of_length_le (Nat.le_of_eq u.length_digits)]
  unfold ofHyphenated?
  rw [hpieces]
  unfold groups at hlengths ⊢
  dsimp only
  rw [if_pos hlengths, hjoined, ofDigitChars?_digits]

/-- **The written form of an id is read as this id.** -/
theorem parse?_chars : parse? u.chars = some u := by
  have hlength : u.chars.length = 36 := by
    simp [chars, Text.joinWith, List.intercalate, length_group]
  unfold parse?
  rw [hlength, if_neg (by decide), if_pos rfl, ofHyphenated?_chars]

theorem not_mem_chars : '/' ∉ u.chars ∧ '#' ∉ u.chars := by
  have hmem : ∀ c ∈ u.chars, c ≠ '/' ∧ c ≠ '#' := by
    intro c hc
    rcases Text.mem_joinWith hc with rfl | ⟨group, hgroup, hc⟩
    · decide
    · exact (mem_groups hgroup hc).2
  exact ⟨fun h => (hmem _ h).1 rfl, fun h => (hmem _ h).2 rfl⟩

end Uuid

end AuditTrail
