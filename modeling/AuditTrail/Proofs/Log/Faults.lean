import AuditTrail.Proofs.Log.Tamper
import AuditTrail.Proofs.Number.Reading
import AuditTrail.Proofs.Text.Pieces

/-!
# Where a chain is broken

The check of the chain reports one finding for each broken link, in the order of the entries
(`reportsExactly_chainFindings`). A link joins an entry to the one before it, so

> an edit of one entry of a chain without findings breaks at most two links: the one of the edited
> entry, and the one of the entry after it (`brokenAt_set`).

Which entry a finding is about can be seen from its text alone (`Reports.index_eq`): the text begins with
the number of the entry, and a blank follows the last digit.
-/

namespace AuditTrail

/-! ## Broken links -/

/-- Whether the link of the entry with a number is broken: the first entry has a previous hash, or a later
one does not repeat the hash of the entry before it. -/
def BrokenAt (entries : List Entry) : Nat → Prop
  | 0 => ∃ e, entries[0]? = some e ∧ e.previousHash ≠ none
  | i + 1 => ∃ p e, entries[i]? = some p ∧ entries[i + 1]? = some e ∧ e.previousHash ≠ some p.hash

/-- A finding on the link of the entry with a number: its text begins with the number and the id of that
entry. -/
def Reports (entries : List Entry) (f : Finding) (i : Nat) : Prop :=
  f.stage = .hashChain ∧ ∃ e text, entries[i]? = some e
    ∧ f.message = "entry " ++ Number.decimal i ++ " (" ++ e.id ++ "): previousHash " ++ text

/-- Findings that report the links with a property, each once and in the order of the entries. -/
def ReportsExactly (entries : List Entry) (findings : List Finding) (broken : Nat → Prop) : Prop :=
  ∃ indices, List.Forall₂ (Reports entries) findings indices ∧ indices.Pairwise (· < ·)
    ∧ ∀ i, i ∈ indices ↔ broken i

/-- Whether the check of a chain has a finding on the link of the entry with a number. -/
def HasFault (entries : List Entry) (i : Nat) : Prop :=
  ∃ f ∈ chainFindings entries, Reports entries f i

/-- The entry before the one with a number, among entries that follow `previous`. -/
def entryBefore (previous : Option Entry) (entries : List Entry) : Nat → Option Entry
  | 0 => previous
  | i + 1 => entries[i]?

theorem entryBefore_cons (previous : Option Entry) (first : Entry) (rest : List Entry) (i : Nat) :
    entryBefore previous (first :: rest) (i + 1) = entryBefore (some first) rest i := by
  cases i <;> rfl

theorem brokenAt_iff {entries : List Entry} {i : Nat} :
    BrokenAt entries i ↔ ∃ e, entries[i]? = some e ∧ ¬ e.Follows (entryBefore none entries i) := by
  cases i with
  | zero => rfl
  | succ i =>
    constructor
    · rintro ⟨p, e, hp, he, hbroken⟩
      refine ⟨e, he, ?_⟩
      rw [entryBefore, hp]
      exact hbroken
    · rintro ⟨e, he, hbroken⟩
      -- There is an entry before one that is not the first.
      obtain ⟨p, hp⟩ : ∃ p, entries[i]? = some p := by
        have hlength := (List.getElem?_eq_some_iff.mp he).1
        exact ⟨_, List.getElem?_eq_getElem (Nat.lt_of_succ_lt hlength)⟩
      rw [entryBefore, hp] at hbroken
      exact ⟨p, e, hp, he, hbroken⟩

/-- In a chain without findings every entry follows the one before it. -/
theorem Linked.follows {entries : List Entry} (h : Linked none entries) {i : Nat} {e : Entry}
    (he : entries[i]? = some e) : e.Follows (entryBefore none entries i) := by
  by_contra hbroken
  obtain ⟨hfirst, hlinks⟩ := linked_iff_getElem?.mp h
  have hlink := brokenAt_iff.mpr ⟨e, he, hbroken⟩
  cases i with
  | zero =>
    obtain ⟨f, hf, hne⟩ := hlink
    exact hne (hfirst f hf)
  | succ i =>
    obtain ⟨p, f, hp, hf, hne⟩ := hlink
    exact hne (hlinks i p f hp hf)

/-! ## Faulty links -/

theorem linkFaultsFrom_cons (index : Nat) (previous : Option Entry) (e : Entry) (rest : List Entry) :
    linkFaultsFrom index previous (e :: rest)
      = (linkFault? previous e).toList.map (fun fault => (index, e, fault))
        ++ linkFaultsFrom (index + 1) (some e) rest := by
  rw [linkFaultsFrom]
  cases linkFault? previous e <;> rfl

theorem mem_linkFaultsFrom {entries : List Entry} {index i : Nat} {previous : Option Entry} {e : Entry}
    {fault : LinkFault} :
    (i, e, fault) ∈ linkFaultsFrom index previous entries
      ↔ ∃ k, i = index + k ∧ entries[k]? = some e
        ∧ linkFault? (entryBefore previous entries k) e = some fault := by
  induction entries generalizing index previous with
  | nil => simp [linkFaultsFrom]
  | cons first rest ih =>
    have hhead : (i, e, fault) ∈ (linkFault? previous first).toList.map (fun fault => (index, first, fault))
        ↔ i = index ∧ first = e ∧ linkFault? previous first = some fault := by
      cases linkFault? previous first with
      | none => simp
      | some found => simp [eq_comm]
    rw [linkFaultsFrom_cons, List.mem_append, hhead, ih]
    constructor
    · rintro (⟨rfl, rfl, hfault⟩ | ⟨k, rfl, he, hfault⟩)
      · exact ⟨0, rfl, rfl, hfault⟩
      · refine ⟨k + 1, by omega, he, ?_⟩
        rwa [entryBefore_cons]
    · rintro ⟨k, hi, he, hfault⟩
      cases k with
      | zero =>
        obtain rfl : first = e := Option.some.inj he
        exact Or.inl ⟨hi, rfl, hfault⟩
      | succ k =>
        rw [entryBefore_cons] at hfault
        exact Or.inr ⟨k, by omega, he, hfault⟩

/-- The entries with a faulty link are the ones whose link is broken. -/
theorem exists_linkFault_iff {entries : List Entry} {i : Nat} :
    (∃ e fault, (i, e, fault) ∈ linkFaultsFrom 0 none entries) ↔ BrokenAt entries i := by
  rw [brokenAt_iff]
  constructor
  · rintro ⟨e, fault, hmem⟩
    obtain ⟨k, hi, he, hfault⟩ := mem_linkFaultsFrom.mp hmem
    obtain rfl : i = k := by omega
    refine ⟨e, he, fun hfollows => ?_⟩
    rw [linkFault?_eq_none.mpr hfollows] at hfault
    exact absurd hfault (by simp)
  · rintro ⟨e, he, hbroken⟩
    obtain ⟨fault, hfault⟩ := Option.ne_none_iff_exists'.mp (mt linkFault?_eq_none.mp hbroken)
    exact ⟨e, fault, mem_linkFaultsFrom.mpr ⟨i, by omega, he, hfault⟩⟩

/-- Faulty links are listed in the order of the entries, no entry twice. -/
theorem pairwise_linkFaultsFrom (entries : List Entry) (index : Nat) (previous : Option Entry) :
    (linkFaultsFrom index previous entries).Pairwise fun a b => a.1 < b.1 := by
  induction entries generalizing index previous with
  | nil => exact List.Pairwise.nil
  | cons first rest ih =>
    rw [linkFaultsFrom_cons]
    cases linkFault? previous first with
    | none => exact ih _ _
    | some fault =>
      refine List.pairwise_cons.mpr ⟨?_, ih _ _⟩
      rintro ⟨i, e, found⟩ hmem
      obtain ⟨k, rfl, _⟩ := mem_linkFaultsFrom.mp hmem
      show index < index + 1 + k
      omega

/-- The text of a fault begins with the number and the id of its entry. -/
theorem LinkFault.message_eq {entries : List Entry} {i : Nat} {e : Entry} {fault : LinkFault}
    (hentry : entries[i]? = some e) (h : linkFault? (entryBefore none entries i) e = some fault) :
    ∃ text, fault.message i e
      = "entry " ++ Number.decimal i ++ " (" ++ e.id ++ "): previousHash " ++ text := by
  cases i with
  | zero =>
    obtain ⟨found, _, rfl⟩ := Option.map_eq_some_iff.mp h
    refine ⟨"must be null for the first entry, found " ++ found, String.toList_injective ?_⟩
    have hzero : Number.decimal 0 = "0" := rfl
    simp [LinkFault.message, String.toList_append, hzero]
  | succ i =>
    obtain ⟨p, hp⟩ : ∃ p, entries[i]? = some p := by
      have hlength := (List.getElem?_eq_some_iff.mp hentry).1
      exact ⟨_, List.getElem?_eq_getElem (Nat.lt_of_succ_lt hlength)⟩
    rw [entryBefore, hp, linkFault?] at h
    split at h
    · exact absurd h (by simp)
    · obtain rfl := Option.some.inj h
      refine ⟨"mismatch: expected " ++ p.hash ++ ", actual " ++ e.previousHash.getD "null",
        String.toList_injective ?_⟩
      simp [LinkFault.message, String.toList_append]

theorem reports_of_mem {entries : List Entry} {i : Nat} {e : Entry} {fault : LinkFault}
    (h : (i, e, fault) ∈ linkFaultsFrom 0 none entries) :
    Reports entries ⟨.hashChain, fault.message i e⟩ i := by
  obtain ⟨k, hi, he, hfault⟩ := mem_linkFaultsFrom.mp h
  obtain rfl : i = k := by omega
  obtain ⟨text, htext⟩ := LinkFault.message_eq he hfault
  exact ⟨rfl, e, text, he, htext⟩

/-- **The findings on a chain are its broken links, in order.** -/
theorem reportsExactly_chainFindings (entries : List Entry) :
    ReportsExactly entries (chainFindings entries) (BrokenAt entries) := by
  refine ⟨(linkFaultsFrom 0 none entries).map Prod.fst, ?_, ?_, ?_⟩
  · rw [chainFindings, List.forall₂_map_left_iff, List.forall₂_map_right_iff, List.forall₂_same]
    exact fun _ hmem => reports_of_mem hmem
  · exact List.pairwise_map.mpr (pairwise_linkFaultsFrom entries 0 none)
  · intro i
    rw [← exists_linkFault_iff, List.mem_map]
    simp

/-! ## Findings and numbers -/

theorem Number.decimal_injective {m n : Nat} (h : decimal m = decimal n) : m = n := by
  have hchars : (digitsOf m).map Digit.char = (digitsOf n).map Digit.char := String.ofList_injective h
  have hread := spanDigits_append (digitsOf m) noDigit_nil
  rw [hchars, spanDigits_append (digitsOf n) noDigit_nil, Prod.mk.injEq] at hread
  rw [← valueOf_digitsOf m, ← valueOf_digitsOf n, hread.1]

theorem Number.space_not_mem_decimal (n : Nat) : ' ' ∉ (decimal n).toList := by
  have hdigit : ∀ d : Digit, d.char ≠ ' ' := by decide
  rw [decimal, String.toList_ofList, naturalChars, List.mem_map]
  rintro ⟨d, _, hd⟩
  exact hdigit d hd

/-- A finding is about one entry only. -/
theorem Reports.index_eq {entries : List Entry} {f : Finding} {i k : Nat} (hi : Reports entries f i)
    (hk : Reports entries f k) : i = k := by
  obtain ⟨_, e, text, _, hmessage⟩ := hi
  obtain ⟨_, e', text', _, hmessage'⟩ := hk
  have hlists := congrArg String.toList (hmessage.symm.trans hmessage')
  simp only [String.toList_append, List.append_assoc, List.append_cancel_left_eq] at hlists
  -- Both numbers are what stands in front of the first blank.
  have hcut : Text.cutAt? ' ' ((Number.decimal i).toList ++ ' ' :: ('(' :: (e.id.toList
      ++ ("): previousHash ".toList ++ text.toList)))) = some ((Number.decimal i).toList, _) :=
    Text.cutAt?_eq_some.mpr ⟨rfl, Number.space_not_mem_decimal i⟩
  have hcut' : Text.cutAt? ' ' ((Number.decimal k).toList ++ ' ' :: ('(' :: (e'.id.toList
      ++ ("): previousHash ".toList ++ text'.toList)))) = some ((Number.decimal k).toList, _) :=
    Text.cutAt?_eq_some.mpr ⟨rfl, Number.space_not_mem_decimal k⟩
  have hsame := hcut.symm.trans ((congrArg (Text.cutAt? ' ') hlists).trans hcut')
  rw [Option.some.injEq, Prod.mk.injEq] at hsame
  exact Number.decimal_injective (String.toList_injective hsame.1)

theorem hasFault_iff {entries : List Entry} {i : Nat} : HasFault entries i ↔ BrokenAt entries i := by
  rw [← exists_linkFault_iff]
  constructor
  · rintro ⟨f, hf, hi⟩
    obtain ⟨⟨k, e, fault⟩, hmem, rfl⟩ := List.mem_map.mp hf
    obtain rfl := hi.index_eq (reports_of_mem hmem)
    exact ⟨e, fault, hmem⟩
  · rintro ⟨e, fault, hmem⟩
    exact ⟨_, List.mem_map_of_mem hmem, reports_of_mem hmem⟩

/-! ## Edits -/

theorem entryBefore_set_succ {entries : List Entry} {j : Nat} (hlength : j < entries.length) (e' : Entry) :
    entryBefore none (entries.set j e') (j + 1) = some e' := List.getElem?_set_self hlength

theorem entryBefore_set_of_ne {entries : List Entry} {i j : Nat} (h : i ≠ j + 1) (e' : Entry) :
    entryBefore none (entries.set j e') i = entryBefore none entries i := by
  cases i with
  | zero => rfl
  | succ i => exact List.getElem?_set_ne (by omega)

/-- **What an edit of one entry breaks.** -/
theorem brokenAt_set {entries : List Entry} (h : Linked none entries) {j : Nat} {e : Entry}
    (he : entries[j]? = some e) (e' : Entry) {i : Nat} :
    BrokenAt (entries.set j e') i
      ↔ i = j ∧ e'.previousHash ≠ e.previousHash
        ∨ i = j + 1 ∧ j + 1 < entries.length ∧ e'.hash ≠ e.hash := by
  have hlength := (List.getElem?_eq_some_iff.mp he).1
  rw [brokenAt_iff]
  by_cases hedited : i = j
  · subst hedited
    have hprevious : e.previousHash = (entryBefore none entries i).map Entry.hash := h.follows he
    rw [entryBefore_set_of_ne (by omega), List.getElem?_set_self hlength, hprevious]
    simp [Entry.Follows]
  · by_cases hnext : i = j + 1
    · subst hnext
      rw [entryBefore_set_succ hlength, List.getElem?_set_ne (by omega)]
      constructor
      · rintro ⟨next, hfound, hbroken⟩
        have hprevious : next.previousHash = some e.hash := by
          have hfollows := h.follows hfound
          rwa [entryBefore, he] at hfollows
        refine Or.inr ⟨rfl, (List.getElem?_eq_some_iff.mp hfound).1, fun hsame => hbroken ?_⟩
        rw [Entry.Follows, hprevious, ← hsame]
        rfl
      · rintro (⟨hj, _⟩ | ⟨_, hbound, hne⟩)
        · exact absurd hj hedited
        · have hfound : entries[j + 1]? = some entries[j + 1] := List.getElem?_eq_getElem hbound
          have hfollows := h.follows hfound
          rw [entryBefore, he] at hfollows
          refine ⟨_, hfound, fun hfollows' => hne ?_⟩
          exact Option.some.inj (hfollows'.symm.trans hfollows)
    · -- The other links join the same two entries as before.
      rw [entryBefore_set_of_ne hnext, List.getElem?_set_ne (Ne.symm hedited)]
      constructor
      · rintro ⟨x, hx, hbroken⟩
        exact absurd (h.follows hx) hbroken
      · rintro (⟨hj, _⟩ | ⟨hj, _⟩)
        · exact absurd hj hedited
        · exact absurd hj hnext

/-- **The findings on a chain say where it is broken.** They are its broken links, in order. A finding is
about one entry only. After an edit of one entry of a chain without findings there is a finding on this
entry exactly if its previous hash changed, one on the next entry exactly if there is one and the hash of
the edited entry changed, and none on any other. -/
theorem chain_faults_located :
    (∀ entries, ReportsExactly entries (chainFindings entries) (BrokenAt entries))
    ∧ (∀ entries f i k, Reports entries f i → Reports entries f k → i = k)
    ∧ ∀ entries, chainFindings entries = [] → ∀ j e, entries[j]? = some e → ∀ e' : Entry,
      (HasFault (entries.set j e') j ↔ e'.previousHash ≠ e.previousHash)
      ∧ (HasFault (entries.set j e') (j + 1) ↔ j + 1 < entries.length ∧ e'.hash ≠ e.hash)
      ∧ ∀ i, i ≠ j → i ≠ j + 1 → ¬ HasFault (entries.set j e') i := by
  refine ⟨reportsExactly_chainFindings, fun _ _ _ _ => Reports.index_eq, ?_⟩
  intro entries hchain j e he e'
  have hbroken := @brokenAt_set entries (chainFindings_eq_nil.mp hchain) j e he e'
  refine ⟨?_, ?_, ?_⟩
  · rw [hasFault_iff, hbroken]
    simp
  · rw [hasFault_iff, hbroken]
    simp
  · intro i hj hnext
    rw [hasFault_iff, hbroken]
    simp [hj, hnext]

/-- An entry that opens a log, with or without a previous hash. -/
def openingEntry (previousHash : Option String) : Entry :=
  ⟨"a", "", ⟨none, "open", []⟩, [], "", previousHash, .blank⟩

theorem canonicalTree_openingEntry (previousHash : Option String) :
    (openingEntry previousHash).projection.canonicalTree = .object [
      (some "action", .object [(some "name", .string (some "open")), (some "parameters", .object [])]),
      (some "id", .string (some "a")),
      (some "notificationHashes", .array []),
      (some "previousHash", (Entry.textOrNull previousHash).canonicalTree),
      (some "stateHash", .string (some "")),
      (some "timestamp", .string (some ""))] := by
  have haction : (Entry.committedAction ⟨none, "open", []⟩).canonicalTree
      = .object [(some "name", .string (some "open")), (some "parameters", .object [])] := by
    rw [Entry.committedAction_eq, Json.canonicalTree_object_of_sorted (by decide +kernel)]
    simp [Json.canonicalTree, Json.canonicalMembers, Json.sortMembers]
  rw [Entry.projection_eq, Json.canonicalTree_object_of_sorted (by simp; decide +kernel)]
  simp only [openingEntry, List.map_cons, List.map_nil, haction]
  rfl

theorem hash_openingEntry : (openingEntry (some "b")).hash ≠ (openingEntry none).hash := by
  intro h
  have hdigests := textHash_injective h
  rw [Json.canonical, Json.canonical, canonicalTree_openingEntry, canonicalTree_openingEntry] at hdigests
  exact absurd hdigests (by decide +kernel)

/-- A log of two entries whose first one is given a previous hash: both links are broken. -/
theorem chain_faults_of_opening :
    ∃ second : Entry, chainFindings [openingEntry none, second] = []
      ∧ HasFault [openingEntry (some "b"), second] 0 ∧ HasFault [openingEntry (some "b"), second] 1
      ∧ ¬ HasFault [openingEntry (some "b"), second] 2 := by
  let second : Entry := ⟨"b", "", ⟨none, "pay", []⟩, [], "", some (openingEntry none).hash, .blank⟩
  have hchain : chainFindings [openingEntry none, second] = [] :=
    chainFindings_eq_nil.mpr ⟨rfl, rfl, trivial⟩
  obtain ⟨hedited, hnext, hothers⟩ :=
    chain_faults_located.2.2 _ hchain 0 (openingEntry none) rfl (openingEntry (some "b"))
  refine ⟨second, hchain, hedited.mpr (by simp [openingEntry]), ?_, hothers 2 (by decide) (by decide)⟩
  exact hnext.mpr ⟨Nat.one_lt_two, hash_openingEntry⟩

end AuditTrail
