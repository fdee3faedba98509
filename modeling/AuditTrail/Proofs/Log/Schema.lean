import AuditTrail.Log.Structure
import AuditTrail.Proofs.Json.Schema
import AuditTrail.Proofs.Number.Reading
import AuditTrail.Proofs.Text.Pieces
import Mathlib.Data.String.Basic

/-!
# What the schema makes of a log

The schema is a means, and what it is a means to is the list `Log.violations`. On the way from one to the other
a violation becomes a place in the wire form, the place a pointer, and the pointer a number and a name again, and
in between the reports may be in any order. Three facts see to it that nothing is lost.

* The schema has a fault for each violation and no other (`faults_log`).
* What a report says of the log depends on its place only, as far as the text in it does not show
  (`ofReport_eq`).
* The remarks on a log are in order (`pairwise_remarks`), so sorting brings any rearrangement of them into this
  order.
-/

namespace AuditTrail

open Json (Tree Schema)
open Json.Schema (faults_ofFields reports_check)

/-! ## The faults of a log -/

/-- The fault of a text, if it is blank. -/
def blankFault (place : List String) (text : String) : List Schema.Fault :=
  if Text.isBlank text then [⟨place, .pattern, .ofText text⟩] else []

theorem faults_nonBlank (place : List String) (text : String) :
    Schema.nonBlank.faults place (.ofText text) = blankFault place text := rfl

theorem faults_action (place : List String) (a : Action) :
    Action.schema.faults place a.tree = blankFault (place ++ ["name"]) a.name := by
  rw [Action.schema, Action.tree, faults_ofFields (by simp)]
  cases a.kind <;> simp [ByName.find?_cons, faults_nonBlank]

theorem faults_proof (place : List String) (p : Proof) : Proof.schema.faults place p.tree
    = blankFault (place ++ ["verificationMethod"]) p.verificationMethod
      ++ blankFault (place ++ ["jws"]) p.jws := by
  rw [Proof.schema, Proof.tree, faults_ofFields (by simp)]
  simp [ByName.find?_cons, faults_nonBlank]

/-- The texts of an entry that must not be blank, with the paths to them, in the order of the schema. -/
def Entry.schemaTexts (e : Entry) : List (List String × String) :=
  [(["id"], e.id), (["timestamp"], e.timestamp), (["stateHash"], e.stateHash),
    (["action", "name"], e.action.name), (["proof", "verificationMethod"], e.proof.verificationMethod),
    (["proof", "jws"], e.proof.jws)]

theorem faults_entry (place : List String) (e : Entry) :
    Entry.schema.faults place e.tree
      = e.schemaTexts.flatMap fun f => blankFault (place ++ f.1) f.2 := by
  rw [Entry.schema, Entry.tree, faults_ofFields (by simp)]
  simp [ByName.find?_cons, faults_nonBlank, faults_action, faults_proof, Entry.schemaTexts]

/-- The fault of a log without entries. -/
def noEntriesFault (log : Log) : List Schema.Fault :=
  if log.entries.isEmpty then [⟨["audit_log"], .minItems 1, .array []⟩] else []

/-- The fault of a state that is no object. -/
def stateFault (log : Log) : List Schema.Fault :=
  if log.state.isObject then [] else [⟨["state"], .type "object", log.state.wireTree⟩]

/-- The faults of the entries. -/
def entryFaults (log : Log) : List Schema.Fault :=
  log.entries.zipIdx.flatMap fun (e, index) =>
    e.schemaTexts.flatMap fun f => blankFault ("audit_log" :: Number.decimal index :: f.1) f.2

theorem faults_state (log : Log) :
    (Schema.object [] []).faults ["state"] log.state.wireTree = stateFault log := by
  unfold stateFault
  cases log.state with
  | object members => rfl
  | _ => rfl

theorem faults_entries (log : Log) :
    (Schema.array 1 Entry.schema).faults ["audit_log"] (.array (log.entries.map Entry.tree))
      = noEntriesFault log ++ entryFaults log := by
  unfold Schema.faults noEntriesFault entryFaults
  cases log.entries with
  | nil => rfl
  | cons e rest => simp [List.zipIdx_map, List.flatMap_map, faults_entry]

/-- **The schema has a fault for each violation and no other.** -/
theorem faults_log (log : Log) :
    Log.schema.faults [] log.tree = noEntriesFault log ++ entryFaults log ++ stateFault log := by
  rw [Log.schema, Log.tree, faults_ofFields (by simp)]
  simp [ByName.find?_cons, faults_entries, faults_state]

/-! ## What reports say -/

theorem toList_pointerTo (first : String) (rest : List String) : (pointerTo (first :: rest)).toList
    = '/' :: Text.joinWith '/' ((first :: rest).map String.toList) := by
  rw [pointerTo, String.toList_ofList]
  induction rest generalizing first with
  | nil => simp [Text.joinWith, List.intercalate]
  | cons next more ih =>
    rw [List.flatMap_cons, ih, List.map_cons, List.map_cons, List.map_cons, Text.joinWith_cons_cons]
    rfl

/-- A pointer is cut into the names that it was put together from. -/
theorem piecesAt_pointerTo {first : String} {rest : List String} (hfirst : first ≠ "")
    (h : ∀ name ∈ first :: rest, '/' ∉ name.toList) :
    (Text.piecesAt '/' ((pointerTo (first :: rest)).toList.dropWhile (· == '/'))).map String.ofList
      = first :: rest := by
  obtain ⟨c, more, hchars⟩ := List.exists_cons_of_ne_nil (mt String.toList_eq_nil_iff.mp hfirst)
  have hc : c ≠ '/' := fun heq => h first List.mem_cons_self (by simp [hchars, heq])
  have hstart : ∃ chars, Text.joinWith '/' ((first :: rest).map String.toList) = c :: chars := by
    cases rest with
    | nil => exact ⟨more, by simp [Text.joinWith, List.intercalate, hchars]⟩
    | cons next names => exact ⟨_, by rw [List.map_cons, List.map_cons, Text.joinWith_cons_cons, hchars]; rfl⟩
  obtain ⟨chars, hjoined⟩ := hstart
  rw [toList_pointerTo, List.dropWhile_cons_of_pos (by simp), hjoined, List.dropWhile_cons_of_neg (by simpa using hc),
    ← hjoined, Text.piecesAt_joinWith (by simp) (by simpa using h), List.map_map]
  simp

theorem allDigits?_decimal (n : Nat) : (Number.allDigits? (Number.decimal n).toList).map Number.valueOf = some n := by
  have hspan := Number.spanDigits_append (Number.digitsOf n) Number.noDigit_nil
  rw [List.append_nil] at hspan
  rw [Number.decimal, String.toList_ofList, Number.naturalChars, Number.allDigits?, hspan]
  have hvalue := Number.valueOf_digitsOf n
  cases hdigits : Number.digitsOf n with
  | nil => exact absurd hdigits (Number.digitsOf_ne_nil n)
  | cons d more =>
    rw [hdigits] at hvalue
    exact congrArg some hvalue

theorem slash_not_mem_decimal (n : Nat) : '/' ∉ (Number.decimal n).toList := by
  have hdigit : ∀ d : Number.Digit, d.char ≠ '/' := by decide
  rw [Number.decimal, String.toList_ofList]
  intro hmem
  obtain ⟨d, _, hd⟩ := List.mem_map.mp hmem
  exact hdigit d hd

/-- The name of a field, with points between the names on the path to it. -/
def dotted (path : List String) : String := String.ofList (Text.joinWith '.' (path.map String.toList))

/-- The remark that the field at a path is blank. -/
def blankRemark (index : Nat) (path : List String) : Remark :=
  ⟨some index, pointerTo ("audit_log" :: Number.decimal index :: path),
    (Violation.blankField index (dotted path)).message⟩

/-- Whether a path leads to a field of an entry: it is not empty, and no name in it has a slash. -/
def IsFieldPath (path : List String) : Prop := path ≠ [] ∧ ∀ name ∈ path, '/' ∉ name.toList

instance (path : List String) : Decidable (IsFieldPath path) :=
  inferInstanceAs (Decidable (_ ∧ _))

/-- A report on a field of an entry says which field it is, and of which entry. -/
theorem ofReport_field {index : Nat} {path : List String} (h : IsFieldPath path) (detail : String) :
    Remark.ofReport ⟨"audit_log" :: Number.decimal index :: path, detail⟩ = blankRemark index path := by
  obtain ⟨hne, hplain⟩ := h
  obtain ⟨name, names, rfl⟩ := List.exists_cons_of_ne_nil hne
  have hpieces := @piecesAt_pointerTo "audit_log" _ (by decide)
    (List.forall_mem_cons.mpr ⟨by decide, List.forall_mem_cons.mpr ⟨slash_not_mem_decimal index, hplain⟩⟩)
  unfold Remark.ofReport describe
  dsimp only
  rw [hpieces]
  simp only [allDigits?_decimal]
  rfl

theorem ofReport_log (detail : String) : Remark.ofReport ⟨["audit_log"], detail⟩
    = ⟨none, pointerTo ["audit_log"], Violation.noEntries.message⟩ := by
  unfold Remark.ofReport describe
  dsimp only
  rw [piecesAt_pointerTo (by decide) (by decide)]
  rfl

theorem describe_state (detail : String) :
    describe (pointerTo ["state"]) detail = (none, "schema violation at '/state': " ++ detail) := by
  have hstart : "schema violation at '" ++ pointerTo ["state"] ++ "': " = "schema violation at '/state': " := by
    decide +kernel
  unfold describe
  rw [piecesAt_pointerTo (by decide) (by decide), ← hstart]
  split
  · rename_i heq
    exact absurd (List.cons.inj heq).1 (by decide)
  · rename_i heq
    exact absurd (List.cons.inj heq).1 (by decide)
  · rfl

/-- The remark on a fault. -/
def Json.Schema.Fault.remark (f : Schema.Fault) : Remark := .ofReport ⟨f.place, f.detail⟩

theorem detail_state (state : Json) : Schema.Fault.detail ⟨["state"], .type "object", state.wireTree⟩
    = state.wire ++ " is not of type \"object\"" := by
  have htype : " is not of type \"" ++ ("object" ++ "\"") = " is not of type \"object\"" := by decide +kernel
  rw [← htype, ← String.append_assoc, ← String.append_assoc]
  rfl

theorem remark_state (state : Json) : Schema.Fault.remark ⟨["state"], .type "object", state.wireTree⟩
    = ⟨none, pointerTo ["state"], (Violation.stateNotObject state).message⟩ := by
  have hmessage : (Violation.stateNotObject state).message
      = "schema violation at '/state': " ++ (state.wire ++ " is not of type \"object\"") := String.append_assoc
  rw [Schema.Fault.remark, detail_state, hmessage]
  unfold Remark.ofReport
  dsimp only
  rw [describe_state]

theorem isFieldPath_of_mem {e : Entry} {f : List String × String} (h : f ∈ e.schemaTexts) :
    IsFieldPath f.1 := by
  have hpaths : ∀ path ∈ [["id"], ["timestamp"], ["stateHash"], ["action", "name"],
      ["proof", "verificationMethod"], ["proof", "jws"]], IsFieldPath path := by decide
  exact hpaths f.1 (List.mem_map_of_mem (f := Prod.fst) h)

theorem mem_entryFaults {log : Log} {f : Schema.Fault} (h : f ∈ entryFaults log) :
    ∃ index path, IsFieldPath path ∧ f.place = "audit_log" :: Number.decimal index :: path := by
  obtain ⟨⟨e, index⟩, _, hmem⟩ := List.mem_flatMap.mp h
  obtain ⟨⟨path, text⟩, hfield, hblank⟩ := List.mem_flatMap.mp hmem
  obtain ⟨_, hf⟩ := List.mem_ite_nil_right.mp hblank
  rw [List.mem_singleton.mp hf]
  exact ⟨index, path, isFieldPath_of_mem hfield, rfl⟩

/-- **What a report says depends on its fault only.** -/
theorem ofReport_eq {log : Log} {f : Schema.Fault} {r : Schema.Report}
    (hf : f ∈ Log.schema.faults [] log.tree) (h : f.ReportedAs r) : Remark.ofReport r = f.remark := by
  obtain ⟨place, detail⟩ := r
  obtain ⟨hplace, hdetail⟩ := h
  obtain rfl : place = f.place := hplace
  unfold Json.Schema.Fault.remark
  rw [faults_log, List.mem_append, List.mem_append] at hf
  rcases hf with (hf | hf) | hf
  · have hlog : f.place = ["audit_log"] := by
      rw [List.mem_singleton.mp (List.mem_ite_nil_right.mp hf).2]
    rw [hlog, ofReport_log, ofReport_log]
  · obtain ⟨index, path, hpath, hfield⟩ := mem_entryFaults hf
    rw [hfield, ofReport_field hpath, ofReport_field hpath]
  · -- The text about a state is shown, and it is the one about the type.
    have htype : f.keyword = .type "object" := by
      rw [List.mem_singleton.mp (List.mem_ite_nil_left.mp hf).2]
    exact congrArg Remark.ofReport (congrArg (Schema.Report.mk f.place) (hdetail _ htype))

/-! ## The remarks on a log -/

/-- The texts of an entry that must not be blank, with the paths to them, in the order of the pointers. -/
def Entry.requiredPaths (e : Entry) : List (List String × String) :=
  [(["action", "name"], e.action.name), (["id"], e.id), (["proof", "jws"], e.proof.jws),
    (["proof", "verificationMethod"], e.proof.verificationMethod), (["stateHash"], e.stateHash),
    (["timestamp"], e.timestamp)]

/-- The remarks on the blank fields of an entry. -/
def Entry.blankRemarks (index : Nat) (e : Entry) : List Remark :=
  (e.requiredPaths.filter fun f => Text.isBlank f.2).map fun f => blankRemark index f.1

/-- The remarks on the log itself. -/
def Log.ownRemarks (log : Log) : List Remark :=
  (if log.entries.isEmpty then [⟨none, pointerTo ["audit_log"], Violation.noEntries.message⟩] else [])
    ++ if log.state.isObject then []
      else [⟨none, pointerTo ["state"], (Violation.stateNotObject log.state).message⟩]

/-- The remarks on a log, in order. -/
def Log.remarks (log : Log) : List Remark :=
  log.ownRemarks ++ log.entries.zipIdx.flatMap fun (e, index) => e.blankRemarks index

theorem schemaTexts_perm (e : Entry) : e.schemaTexts.Perm e.requiredPaths := by
  have hplaces : ([1, 5, 4, 0, 3, 2] : List (Fin 6)).Perm [0, 1, 2, 3, 4, 5] := by decide
  exact hplaces.map fun place => e.requiredPaths.get place

theorem map_remark_blankFault {index : Nat} {path : List String} (h : IsFieldPath path) (text : String) :
    (blankFault ("audit_log" :: Number.decimal index :: path) text).map Schema.Fault.remark
      = if Text.isBlank text then [blankRemark index path] else [] := by
  unfold blankFault
  split
  · rw [List.map_singleton, Schema.Fault.remark, ofReport_field h]
  · rfl

/-- The items with a property, one by one. -/
theorem flatMap_singleton_of {α β : Type} (p : α → Bool) (g : α → β) (items : List α) :
    (items.flatMap fun a => if p a then [g a] else []) = (items.filter p).map g := by
  induction items with
  | nil => rfl
  | cons a rest ih =>
    rw [List.flatMap_cons, ih, List.filter_cons]
    split <;> rfl

theorem map_remark_texts (index : Nat) (e : Entry) :
    ((e.schemaTexts.flatMap fun f => blankFault ("audit_log" :: Number.decimal index :: f.1) f.2).map
      Schema.Fault.remark).Perm (e.blankRemarks index) := by
  rw [List.map_flatMap, List.flatMap_congr fun f hf => map_remark_blankFault (isFieldPath_of_mem hf) f.2,
    flatMap_singleton_of]
  exact ((schemaTexts_perm e).filter _).map _

/-- **The remarks on the faults of a log are the remarks on it**, in some order. -/
theorem map_remark_faults (log : Log) :
    ((Log.schema.faults [] log.tree).map Schema.Fault.remark).Perm log.remarks := by
  have hown : (noEntriesFault log).map Schema.Fault.remark ++ (stateFault log).map Schema.Fault.remark
      = log.ownRemarks := by
    unfold noEntriesFault stateFault Log.ownRemarks
    congr 1
    · split
      · rw [List.map_singleton, Schema.Fault.remark, ofReport_log]
      · rfl
    · split
      · rfl
      · rw [List.map_singleton, remark_state]
  have hentries : ((entryFaults log).map Schema.Fault.remark).Perm
      (log.entries.zipIdx.flatMap fun (e, index) => e.blankRemarks index) := by
    rw [entryFaults, List.map_flatMap]
    exact List.Perm.flatMap_left _ fun (e, index) _ => map_remark_texts index e
  rw [faults_log, List.map_append, List.map_append, List.append_assoc, Log.remarks, ← hown, List.append_assoc]
  exact (List.perm_append_comm.trans (List.Perm.append_left _ hentries)).append_left _

/-- Whatever order reports come in, the remarks are those on the log. -/
theorem map_ofReport_perm {log : Log} {reports : List Schema.Report}
    (h : Log.schema.Reports log.tree reports) : (reports.map Remark.ofReport).Perm log.remarks := by
  obtain ⟨faults, hperm, hreported⟩ := h
  have hsame : List.Forall₂ (fun f r => Schema.Fault.remark f = Remark.ofReport r) faults reports :=
    forall₂_of_mem hreported fun f hf r hr => (ofReport_eq (hperm.mem_iff.mp hf) hr).symm
  rw [← List.forall₂_map_right_iff, ← List.forall₂_map_left_iff, List.forall₂_eq_eq_eq] at hsame
  rw [← hsame]
  exact (hperm.map _).trans (map_remark_faults log)

/-! ## The order of remarks -/

theorem Remark.le_of_entry {a b : Remark} (h : compare a.entry b.entry = .lt) : (a.order b).isLE = true := by
  simp [Remark.order, compareLex, compareOn, h]

theorem Remark.le_of_pointer {a b : Remark} (h : a.entry = b.entry) (hpointer : a.pointer < b.pointer) :
    (a.order b).isLE = true := by
  have hlt : compare a.pointer b.pointer = .lt := compare_lt_iff_lt.mpr hpointer
  simp [Remark.order, compareLex, compareOn, h, hlt]

theorem pointerTo_append_lt (front : List String) {path path' : List String} (h : pointerTo path < pointerTo path') :
    pointerTo (front ++ path) < pointerTo (front ++ path') := by
  rw [String.lt_iff_toList_lt] at h ⊢
  simp only [pointerTo, String.toList_ofList, List.flatMap_append] at h ⊢
  exact List.append_left_lt h

/-- The remarks on one entry are in the order of the fields. -/
theorem pairwise_blankRemarks (index : Nat) (e : Entry) :
    (e.blankRemarks index).Pairwise fun a b => (a.order b).isLE = true := by
  have hpaths : ([["action", "name"], ["id"], ["proof", "jws"], ["proof", "verificationMethod"], ["stateHash"],
      ["timestamp"]].map pointerTo).Pairwise (· < ·) := by decide +kernel
  have hfields : e.requiredPaths.Pairwise fun f f' => pointerTo f.1 < pointerTo f'.1 := by
    rw [← List.pairwise_map]
    exact hpaths
  refine List.pairwise_map.mpr ((hfields.filter _).imp fun hlt => ?_)
  exact Remark.le_of_pointer rfl (pointerTo_append_lt ["audit_log", Number.decimal index] hlt)

theorem entry_of_mem_blankRemarks {index : Nat} {e : Entry} {r : Remark} (h : r ∈ e.blankRemarks index) :
    r.entry = some index := by
  obtain ⟨f, _, rfl⟩ := List.mem_map.mp h
  rfl

theorem entry_of_mem_ownRemarks {log : Log} {r : Remark} (h : r ∈ log.ownRemarks) : r.entry = none := by
  rcases List.mem_append.mp h with h | h
  · rw [List.mem_singleton.mp (List.mem_ite_nil_right.mp h).2]
  · rw [List.mem_singleton.mp (List.mem_ite_nil_left.mp h).2]

/-- **The remarks on a log are in order**: first those on the log itself, then those on its entries. -/
theorem pairwise_remarks (log : Log) : log.remarks.Pairwise fun a b => (a.order b).isLE = true := by
  refine List.pairwise_append.mpr ⟨?_, List.pairwise_flatMap.mpr ⟨?_, ?_⟩, ?_⟩
  · have hpointers : pointerTo ["audit_log"] < pointerTo ["state"] := by decide +kernel
    unfold Log.ownRemarks
    refine List.pairwise_append.mpr ⟨?_, ?_, ?_⟩
    · split <;> simp
    · split <;> simp
    · intro a ha b hb
      rw [List.mem_singleton.mp (List.mem_ite_nil_right.mp ha).2,
        List.mem_singleton.mp (List.mem_ite_nil_left.mp hb).2]
      exact Remark.le_of_pointer rfl hpointers
  · exact fun (e, index) _ => pairwise_blankRemarks index e
  · have hindices : log.entries.zipIdx.Pairwise fun p q => p.2 < q.2 := by
      rw [← List.pairwise_map, List.zipIdx_map_snd]
      exact List.pairwise_lt_range'
    refine hindices.imp fun hlt a ha b hb => Remark.le_of_entry ?_
    rw [entry_of_mem_blankRemarks ha, entry_of_mem_blankRemarks hb]
    exact Nat.compare_eq_lt.mpr hlt
  · intro a ha b hb
    obtain ⟨⟨e, index⟩, _, hb⟩ := List.mem_flatMap.mp hb
    refine Remark.le_of_entry ?_
    rw [entry_of_mem_ownRemarks ha, entry_of_mem_blankRemarks hb]
    rfl

theorem Remark.order_eq_eq {a b : Remark} (h : a.order b = .eq) : a = b := by
  obtain ⟨hentry, hrest⟩ := compareLex_eq_eq.mp h
  obtain ⟨hpointer, hmessage⟩ := compareLex_eq_eq.mp hrest
  obtain ⟨entry, pointer, message⟩ := a
  obtain ⟨entry', pointer', message'⟩ := b
  obtain rfl : entry = entry' := Std.LawfulEqCmp.eq_of_compare hentry
  obtain rfl : pointer = pointer' := Std.LawfulEqCmp.eq_of_compare hpointer
  obtain rfl : message = message' := Std.LawfulEqCmp.eq_of_compare hmessage
  rfl

/-- The comparison of remarks is a linear order, so the remarks of any reports are sorted into one list. -/
theorem sorted_eq {remarks found : List Remark} (hperm : found.Perm remarks)
    (hsorted : remarks.Pairwise fun a b => (a.order b).isLE = true) :
    found.mergeSort (fun a b => (a.order b).isLE) = remarks := by
  have : Std.TransCmp Remark.order := inferInstanceAs (Std.TransCmp (compareLex _ (compareLex _ _)))
  refine List.Perm.eq_of_pairwise
    (fun a b _ _ hab hba => Remark.order_eq_eq (Std.OrientedCmp.isLE_antisymm hab hba)) ?_ hsorted
    ((List.mergeSort_perm _ _).trans hperm)
  have htotal : ∀ a b : Remark, ((a.order b).isLE || (b.order a).isLE) = true := by
    intro a b
    have hswap : b.order a = (a.order b).swap := Std.OrientedCmp.eq_swap
    rw [hswap]
    cases a.order b <;> rfl
  exact List.pairwise_mergeSort (fun a b c => Std.TransCmp.isLE_trans) htotal found

/-! ## What is found -/

theorem blankFieldsFrom_eq (index : Nat) (entries : List Entry) :
    blankFieldsFrom index entries = (entries.zipIdx index).flatMap fun (e, i) => e.blankFields i := by
  induction entries generalizing index with
  | nil => rfl
  | cons e rest ih => rw [blankFieldsFrom, ih, List.zipIdx_cons, List.flatMap_cons]

/-- The names of the required fields are their paths, with points in them. -/
theorem requiredFields_eq (e : Entry) : e.requiredFields = e.requiredPaths.map fun f => (dotted f.1, f.2) := by
  have hnames : [["action", "name"], ["id"], ["proof", "jws"], ["proof", "verificationMethod"], ["stateHash"],
      ["timestamp"]].map dotted
      = ["action.name", "id", "proof.jws", "proof.verificationMethod", "stateHash", "timestamp"] := by
    decide +kernel
  simp only [List.map_cons, List.map_nil, List.cons.injEq, and_true] at hnames
  simp only [Entry.requiredFields, Entry.requiredPaths, List.map_cons, List.map_nil, hnames]

/-- The remarks on a log are its violations. -/
theorem message_remarks (log : Log) :
    log.remarks.map Remark.message = log.violations.map Violation.message := by
  have hown : log.ownRemarks.map Remark.message
      = ((if log.entries.isEmpty then [Violation.noEntries] else [])
        ++ if log.state.isObject then [] else [Violation.stateNotObject log.state]).map Violation.message := by
    unfold Log.ownRemarks
    split <;> split <;> rfl
  have hblank : ∀ (e : Entry) (index : Nat),
      (e.blankRemarks index).map Remark.message = (e.blankFields index).map Violation.message := by
    intro e index
    rw [Entry.blankRemarks, Entry.blankFields, requiredFields_eq, List.filter_map, List.map_map, List.map_map,
      List.map_map]
    rfl
  rw [Log.violations, List.map_append, ← hown, blankFieldsFrom_eq, List.map_flatMap, Log.remarks, List.map_append,
    List.map_flatMap]
  simp only [hblank]

/-- **Whatever order the schema reports in, what is found are the violations of the log, in their order.** -/
theorem findingsOfReports_eq {log : Log} {reports : List Schema.Report}
    (h : Log.schema.Reports log.tree reports) :
    findingsOfReports reports = log.violations.map fun v => ⟨.shape, v.message⟩ := by
  rw [findingsOfReports, sorted_eq (map_ofReport_perm h) (pairwise_remarks log)]
  have hmessages := congrArg (List.map (Finding.mk .shape)) (message_remarks log)
  rwa [List.map_map, List.map_map] at hmessages

theorem structureFindings_eq (log : Log) :
    structureFindings log = log.violations.map fun v => ⟨.shape, v.message⟩ :=
  findingsOfReports_eq (reports_check Log.schema log.tree)

/-- **All violations are found, each of them once, and in their order**, whatever order the schema reports
them in: that the log has no entry, that its state is no object, and then entry by entry which of the six
fields have no character but blank ones. -/
theorem structure_reported (log : Log) {reports : List Schema.Report}
    (h : Log.schema.Reports log.tree reports) :
    findingsOfReports reports = structureFindings log
      ∧ structureFindings log = log.violations.map (fun v => ⟨.shape, v.message⟩)
      ∧ log.violations
        = (if log.entries = [] then [.noEntries] else [])
          ++ (if log.state.isObject then [] else [.stateNotObject log.state])
          ++ log.entries.zipIdx.flatMap fun (e, index) =>
            ((["action.name", "id", "proof.jws", "proof.verificationMethod", "stateHash", "timestamp"].zip
              [e.action.name, e.id, e.proof.jws, e.proof.verificationMethod, e.stateHash, e.timestamp]).filter
              fun f => f.2.toList.all (· ∈ Text.schemaBlank)).map fun f => .blankField index f.1 := by
  refine ⟨(findingsOfReports_eq h).trans (structureFindings_eq log).symm, structureFindings_eq log, ?_⟩
  have hblank : ∀ text : String, Text.isBlank text = text.toList.all (· ∈ Text.schemaBlank) := by
    simp [Text.isBlank]
  rw [Log.violations, blankFieldsFrom_eq]
  simp only [Entry.blankFields, hblank, List.isEmpty_iff]
  rfl

/-- An entry with some of its texts. -/
def shortEntry (id timestamp name : String) : Entry :=
  ⟨id, timestamp, ⟨none, name, []⟩, [], "sha256:", none, ⟨"", "", "did:web:a#k", "", "a.b.c"⟩⟩

/-- A log without a state, with blank fields in the entries two and ten. -/
def patchyLog : Log :=
  ⟨[shortEntry "a" "t" "n", shortEntry "a" "t" "n", shortEntry "\t" "t" "n"]
    ++ List.replicate 7 (shortEntry "a" "t" "n") ++ [shortEntry "a" " \u00a0" ""], .null⟩

/-- The reports on a log from back to front: the tenth entry still comes after the second. -/
theorem structure_reported_patchy :
    Log.schema.Reports patchyLog.tree (Log.schema.check patchyLog.tree).reverse
      ∧ (findingsOfReports (Log.schema.check patchyLog.tree).reverse).map Finding.message
        = ["schema violation at '/state': null is not of type \"object\"", "entry 2: id must not be blank",
          "entry 10: action.name must not be blank", "entry 10: timestamp must not be blank"] := by
  have hreports : Log.schema.Reports patchyLog.tree (Log.schema.check patchyLog.tree).reverse := by
    obtain ⟨faults, hperm, hreported⟩ := reports_check Log.schema patchyLog.tree
    exact ⟨faults.reverse, (List.reverse_perm faults).trans hperm, List.forall₂_reverse_iff.mpr hreported⟩
  obtain ⟨hfound, hviolations, _⟩ := structure_reported patchyLog hreports
  refine ⟨hreports, ?_⟩
  rw [hfound, hviolations]
  decide +kernel

end AuditTrail
