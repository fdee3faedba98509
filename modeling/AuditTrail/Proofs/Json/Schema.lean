import AuditTrail.Json.Schema
import AuditTrail.Proofs.Json.Value

/-!
# What is reported on a document

Whoever checks a document against a schema may go through it in any order, and word what it finds as it likes.
What is relied on is that each violated keyword is reported once, at its place (`Schema.Reports`).

A document is mostly made of records, and a record that has all its fields violates what the fields violate
(`faults_ofFields`).
-/

namespace AuditTrail.Json.Schema

/-! ## Reports -/

/-- A fault is reported at its place, and one of the type with the text about it. -/
def Fault.ReportedAs (f : Fault) (r : Report) : Prop :=
  r.place = f.place ∧ ∀ name, f.keyword = .type name → r.detail = f.detail

/-- All faults of a document are reported, each of them once, and nothing else is. The order is left open, and
so are the texts about all keywords but the type. -/
def Reports (schema : Schema) (document : Tree) (reports : List Report) : Prop :=
  ∃ faults, faults.Perm (schema.faults [] document) ∧ List.Forall₂ Fault.ReportedAs faults reports

theorem reports_check (schema : Schema) (document : Tree) :
    schema.Reports document (schema.check document) := by
  refine ⟨_, List.Perm.refl _, ?_⟩
  rw [check, List.forall₂_map_right_iff]
  exact List.forall₂_same.mpr fun f _ => ⟨rfl, fun _ _ => rfl⟩

/-! ## Records -/

variable {place : List String} {required : List String} {properties : List (String × Schema)}
  {fields : List (String × Tree)}

theorem lookup_fields (name : String) (fields : List (String × Tree)) :
    (fields.map fun (n, t) => (some n, t)).lookup (some name) = ByName.find? name fields := by
  unfold ByName.find?
  induction fields with
  | nil => rfl
  | cons field rest ih =>
    rw [List.map_cons, List.lookup_cons, List.lookup_cons, ih]
    rfl

theorem memberFaults_eq (place : List String) (members : List (Option String × Tree))
    (properties : List (String × Schema)) :
    memberFaults place members properties = properties.flatMap fun p =>
      ((members.lookup (some p.1)).map (p.2.faults (place ++ [p.1]))).getD [] := by
  induction properties with
  | nil => rfl
  | cons p rest ih =>
    obtain ⟨name, schema⟩ := p
    rw [memberFaults, ih, List.flatMap_cons]
    cases members.lookup (some name) <;> rfl

/-- A record that has all fields it must have violates what its fields violate. -/
theorem faults_ofFields (h : required ⊆ fields.map Prod.fst) :
    (object required properties).faults place (.ofFields fields) = properties.flatMap fun p =>
      ((ByName.find? p.1 fields).map (p.2.faults (place ++ [p.1]))).getD [] := by
  have hmissing : missing required (fields.map fun (name, t) => (some name, t)) = [] := by
    refine List.filter_eq_nil_iff.mpr fun name hname => ?_
    obtain ⟨field, hfield, rfl⟩ := List.mem_map.mp (h hname)
    simpa using ⟨_, hfield⟩
  rw [Tree.ofFields, faults]
  dsimp only
  rw [hmissing, memberFaults_eq]
  simp only [lookup_fields, List.map_nil, List.nil_append]

end AuditTrail.Json.Schema
