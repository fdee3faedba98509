import AuditTrail.Proofs.Log.Schema
import Mathlib.Tactic.Tauto

/-!
# Logs without violations

The structure check reports nothing exactly if the log has an entry, its state is an object, and no
required field of any entry is blank. A field is not blank if it has a character that the schema does
not count as white space.
-/

namespace AuditTrail

namespace Text

theorem isBlank_eq_false {text : String} :
    isBlank text = false ↔ ∃ c ∈ text.toList, c ∉ schemaBlank := by
  simp [isBlank, List.all_eq_false]

end Text

/-- The texts of an entry that must not be blank. -/
def Entry.requiredTexts (e : Entry) : List String :=
  [e.id, e.timestamp, e.action.name, e.stateHash, e.proof.verificationMethod, e.proof.jws]

theorem Entry.blankFields_eq_nil {index : Nat} {e : Entry} :
    e.blankFields index = [] ↔ ∀ text ∈ e.requiredTexts, ∃ c ∈ text.toList, c ∉ Text.schemaBlank := by
  simp only [← Text.isBlank_eq_false, blankFields, List.map_eq_nil_iff, List.filter_eq_nil_iff,
    requiredFields, requiredTexts, List.forall_mem_cons, Bool.not_eq_true]
  tauto

theorem blankFieldsFrom_eq_nil {entries : List Entry} {index : Nat} :
    blankFieldsFrom index entries = [] ↔ ∀ e ∈ entries, ∀ text ∈ e.requiredTexts,
      ∃ c ∈ text.toList, c ∉ Text.schemaBlank := by
  induction entries generalizing index with
  | nil => simp [blankFieldsFrom]
  | cons e rest ih =>
    rw [blankFieldsFrom, List.append_eq_nil_iff, ih, Entry.blankFields_eq_nil, List.forall_mem_cons]

/-- **The structure has no findings exactly if nothing required is missing.** -/
theorem structureFindings_eq_nil {log : Log} :
    structureFindings log = [] ↔ log.entries ≠ [] ∧ log.state.isObject = true
      ∧ ∀ e ∈ log.entries, ∀ text ∈ e.requiredTexts,
        ∃ c ∈ text.toList, c ∉ Text.schemaBlank := by
  rw [structureFindings_eq, List.map_eq_nil_iff, Log.violations, List.append_eq_nil_iff,
    List.append_eq_nil_iff, blankFieldsFrom_eq_nil, and_assoc]
  refine and_congr ?_ (and_congr ?_ Iff.rfl)
  · cases log.entries <;> simp
  · cases log.state.isObject <;> simp

end AuditTrail
