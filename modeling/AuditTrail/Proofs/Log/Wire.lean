import AuditTrail.Log.Source
import AuditTrail.Proofs.Json.Record
import AuditTrail.Proofs.Log.Entry

/-!
# Logs read back

A log that is written is read as the same log (`Log.parse_wire`). The values in it have to be ones that can
be read at all, and its text may not go deeper than a reader follows it. Each part of a log is a record, so
each reader is followed by what is found for the fields of its record.
-/

namespace AuditTrail

open Json.Tree (Reads orElse? list? members? nullable? readAs?_text record?_ofFields text? value?
  writable_array writable_ofFields writable_ofText writable_ofText?)

/-! ## Reading -/

theorem ActionKind.nullable?_name (k : ActionKind) (room : Nat) :
    nullable? (ActionKind.ofTree? room) (.ofText k.name) = some (some k) := by
  cases k <;> rfl

theorem Action.reads_tree {a : Action} (h : Json.WellFormed (.object a.parameters)) :
    Reads Action.ofTree? a.tree a := by
  intro room hroom
  obtain ⟨kind, name, parameters⟩ := a
  -- A kind that there is not is not written.
  cases kind with
  | none =>
    obtain ⟨inner, field, hrecord, hfields, hmissing⟩ :=
      record?_ofFields ["type", "name", "parameters"] (by simp) hroom
    simp only [List.nil_append, List.forall_mem_cons] at hfields
    obtain ⟨⟨_, hname⟩, ⟨hdepth, hparameters⟩, _⟩ := hfields
    have htype : field "type" = some none := hmissing "type" (by simp)
    rw [ofTree?, tree, hrecord]
    simp [htype, hname, hparameters, Reads.members h inner hdepth]
  | some k =>
    obtain ⟨inner, field, hrecord, hfields, _⟩ :=
      record?_ofFields ["type", "name", "parameters"] (by simp) hroom
    simp only [List.cons_append, List.nil_append, List.forall_mem_cons] at hfields
    obtain ⟨⟨_, htype⟩, ⟨_, hname⟩, ⟨hdepth, hparameters⟩, _⟩ := hfields
    rw [ofTree?, tree, hrecord]
    simp [htype, hname, hparameters, k.nullable?_name, Reads.members h inner hdepth]

theorem Proof.reads_tree (p : Proof) : Reads Proof.ofTree? p.tree p := by
  intro room hroom
  obtain ⟨inner, field, hrecord, hfields, _⟩ :=
    record?_ofFields ["type", "created", "verificationMethod", "proofPurpose", "jws"] (by simp) hroom
  simp only [List.forall_mem_cons] at hfields
  obtain ⟨⟨_, htype⟩, ⟨_, hcreated⟩, ⟨_, hmethod⟩, ⟨_, hpurpose⟩, ⟨_, hjws⟩, _⟩ := hfields
  rw [ofTree?, tree, hrecord]
  simp [htype, hcreated, hmethod, hpurpose, hjws]

theorem Entry.reads_tree {e : Entry} (h : e.WellFormed) : Reads Entry.ofTree? e.tree e := by
  intro room hroom
  obtain ⟨inner, field, hrecord, hfields, _⟩ := record?_ofFields fieldNames (by simp) hroom
  simp only [List.forall_mem_cons] at hfields
  obtain ⟨⟨_, hid⟩, ⟨_, htimestamp⟩, ⟨hactionDepth, haction⟩, ⟨hhashesDepth, hhashes⟩, ⟨_, hstateHash⟩,
    ⟨_, hprevious⟩, ⟨hproofDepth, hproof⟩, _⟩ := hfields
  have hnotified : list? (fun _ => text?) inner (.array (e.notificationHashes.map .ofText))
      = some e.notificationHashes := by
    refine Reads.list (fun text _ => ?_) inner hhashesDepth
    exact fun _ _ => rfl
  rw [ofTree?, tree, hrecord]
  simp [hid, htimestamp, haction, hhashes, hstateHash, hprevious, hproof, hnotified,
    Action.reads_tree h inner hactionDepth, e.proof.reads_tree inner hproofDepth]

theorem Log.reads_tree {l : Log} (h : l.WellFormed) : Reads Log.ofTree? l.tree l := by
  intro room hroom
  obtain ⟨inner, field, hrecord, hfields, _⟩ :=
    record?_ofFields ["audit_log", "state"] (by simp) hroom
  simp only [List.forall_mem_cons] at hfields
  obtain ⟨⟨hentriesDepth, hentries⟩, ⟨hstateDepth, hstate⟩, _⟩ := hfields
  have hread := Reads.list (fun e he => Entry.reads_tree (h.entries e he)) inner hentriesDepth
  rw [ofTree?, tree, hrecord]
  simp [hentries, hstate, hread, Reads.value h.state inner hstateDepth]

/-! ## Writing -/

theorem Action.writable_tree (a : Action) : a.tree.Writable := by
  have hparameters := Json.writable_wireTree (.object a.parameters)
  rw [tree, writable_ofFields]
  cases a.kind with
  | none => simpa [writable_ofText] using hparameters
  | some k => simpa [writable_ofText] using hparameters

theorem Proof.writable_tree (p : Proof) : p.tree.Writable := by
  rw [tree, writable_ofFields]
  simp [writable_ofText]

theorem Entry.writable_tree (e : Entry) : e.tree.Writable := by
  rw [tree, writable_ofFields]
  simp [writable_ofText, writable_ofText?, writable_array, Action.writable_tree, Proof.writable_tree]

theorem Log.writable_tree (l : Log) : l.tree.Writable := by
  rw [tree, writable_ofFields]
  simp [writable_array, Entry.writable_tree, Json.writable_wireTree]

/-! ## Logs -/

/-- **A log that is written is read as the same log.** -/
theorem Log.ofText?_wire {l : Log} (h : l.WellFormed) (hdepth : l.tree.depth ≤ Json.Tree.maxDepth) :
    Log.ofText? l.wire = some l :=
  readAs?_text (Log.reads_tree h) l.writable_tree hdepth

theorem Log.parse_wire {l : Log} (h : l.WellFormed) (hdepth : l.tree.depth ≤ Json.Tree.maxDepth)
    (source : String) : Log.parse source l.wire = .ok l := by
  rw [Log.parse, Log.ofText?_wire h hdepth]

end AuditTrail
