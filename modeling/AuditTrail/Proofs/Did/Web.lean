import AuditTrail.Did.Web
import AuditTrail.Proofs.Failure
import AuditTrail.Proofs.Text.Percent
import AuditTrail.Proofs.Text.Pieces

/-!
# Which DIDs share a document

A DID of the method `web` names a list of segments, a host and then a path (`Names`). They are written with
colons between them and with percent escapes, and a fragment may follow. All that the location of the
document depends on is the segments with their escapes resolved,

> a DID has a location exactly if it names segments, and these give the URL (`location_of_names`),

so two spellings of one list of segments share a document. Different lists do not, except that a host
without a path is given the path `.well-known`, which a DID can also write down itself. A slash that an
escape puts into a segment would be taken for the end of the segment, so this holds of segments without
slashes only.
-/

namespace AuditTrail.Did

variable {settings : Settings} {did : String} {host : List Char} {path segments segments' : List (List Char)}

/-- A segment as it is written: not empty, and without the characters that end a segment or start the
fragment. -/
def IsWritten (text : List Char) : Prop := text ≠ [] ∧ ':' ∉ text ∧ '#' ∉ text

/-- A text with percent escapes stands for another text. -/
def StandsFor (written segment : List Char) : Prop :=
  Percent.Resolves written (Bytes.ofString (String.ofList segment))

/-- What a DID names: after `did:web:` there are segments with colons between them, and then nothing or a
fragment. -/
def Names (did : String) (segments : List (List Char)) : Prop :=
  ∃ written fragment, written ≠ [] ∧ (∀ text ∈ written, IsWritten text)
    ∧ List.Forall₂ StandsFor written segments ∧ (∀ c ∈ fragment.head?, c = '#')
    ∧ did.toList = "did:web:".toList ++ (Text.joinWith ':' written ++ fragment)

/-- The segments between a host and the name of the document. -/
def documentPath (path : List (List Char)) : List (List Char) :=
  if path = [] then [".well-known".toList] else path

/-- The segments of the URL of a document. -/
def documentSegments (authority : List Char) (path : List (List Char)) : List (List Char) :=
  authority :: (documentPath path ++ ["did.json".toList])

/-- The URL of a document. -/
def documentUrl (scheme : String) (authority : List Char) (path : List (List Char)) : String :=
  scheme ++ "://" ++ String.ofList (Text.joinWith '/' (documentSegments authority path))

/-- Whether lists of segments lead to one document: they are the same, or one is a host and the other is
this host with the path that stands in for no path. -/
def SameDocument (segments segments' : List (List Char)) : Prop :=
  segments = segments' ∨ ∃ host, (segments = [host] ∧ segments' = [host, ".well-known".toList])
    ∨ (segments = [host, ".well-known".toList] ∧ segments' = [host])

/-! ## What a DID names -/

theorem decodeSegment_eq_ok {written segment : List Char} :
    decodeSegment written = .ok segment ↔ StandsFor written segment := by
  rw [StandsFor, ← Percent.unescapedText?_eq_some]
  unfold decodeSegment
  cases Percent.unescapedText? written with
  | none => simp
  | some decoded => simp

/-- A segment is empty exactly if it is written so. -/
theorem StandsFor.eq_nil_iff {written segment : List Char} (h : StandsFor written segment) :
    segment = [] ↔ written = [] := by
  constructor
  · rintro rfl
    exact Percent.Resolves.eq_nil h rfl
  · rintro rfl
    by_contra hne
    exact Bytes.ofString_ne_nil (by simpa using hne) (Percent.Resolves.eq_unescaped h)

theorem forall_ne_nil_iff {written : List (List Char)} (h : List.Forall₂ StandsFor written segments) :
    (∀ text ∈ written, text ≠ []) ↔ ∀ segment ∈ segments, segment ≠ [] := by
  induction h with
  | nil => simp
  | cons hfirst _ ih => simp [hfirst.eq_nil_iff, ih]

theorem any_isEmpty_iff : path.any List.isEmpty = true ↔ ¬ ∀ segment ∈ path, segment ≠ [] := by
  simp

/-- What stands before the fragment is cut at the colons. -/
theorem names_iff : Names did segments ↔ ∃ rest, Text.before '#' did.toList = "did:web:".toList ++ rest
    ∧ (∀ segment ∈ segments, segment ≠ []) ∧ List.Forall₂ StandsFor (Text.piecesAt ':' rest) segments := by
  constructor
  · rintro ⟨written, fragment, hne, hwritten, hstands, hfragment, hdid⟩
    have hhash : '#' ∉ "did:web:".toList ++ Text.joinWith ':' written := by
      intro hmem
      rcases List.mem_append.mp hmem with hmem | hmem
      · exact absurd hmem (by decide)
      · rcases Text.mem_joinWith hmem with heq | ⟨text, htext, hc⟩
        · exact absurd heq (by decide)
        · exact (hwritten text htext).2.2 hc
    refine ⟨Text.joinWith ':' written, ?_, ?_, ?_⟩
    · rw [hdid, ← List.append_assoc, Text.before_append hhash hfragment]
    · exact (forall_ne_nil_iff hstands).mp fun text htext => (hwritten text htext).1
    · rwa [Text.piecesAt_joinWith hne fun text htext => (hwritten text htext).2.1]
  · rintro ⟨rest, hbefore, hne, hstands⟩
    obtain ⟨fragment, hdid, hhash, hfragment⟩ := Text.exists_before '#' did.toList
    refine ⟨Text.piecesAt ':' rest, fragment, Text.piecesAt_ne_nil ':' rest, fun text htext => ?_, hstands,
      hfragment, ?_⟩
    · refine ⟨(forall_ne_nil_iff hstands).mpr hne text htext, Text.not_mem_of_mem_piecesAt htext, ?_⟩
      intro hmem
      have hrest : '#' ∈ Text.joinWith ':' (Text.piecesAt ':' rest) := Text.mem_joinWith_of_mem htext hmem
      rw [Text.joinWith_piecesAt] at hrest
      exact hhash (hbefore ▸ List.mem_append_right _ hrest)
    · rw [Text.joinWith_piecesAt, ← List.append_assoc, ← hbefore, ← hdid]

/-- **A DID is read as the host and the path that it names.** -/
theorem hostAndPath_eq_ok : hostAndPath did.toList = .ok (host, path) ↔ Names did (host :: path) := by
  rw [names_iff]
  unfold hostAndPath
  dsimp only
  cases hstart : Text.dropStart? webStart.toList (Text.before '#' did.toList) with
  | none =>
    simp only [reduceCtorEq, false_iff]
    rintro ⟨rest, hbefore, _⟩
    exact absurd (hstart.symm.trans (Text.dropStart?_eq_some.mpr hbefore)) (by simp)
  | some rest =>
    have hbefore := Text.dropStart?_eq_some.mp hstart
    obtain ⟨first, others, hpieces⟩ := List.exists_cons_of_ne_nil (Text.piecesAt_ne_nil ':' rest)
    dsimp only
    rw [hpieces]
    dsimp only
    have hmapM : ∀ {segments}, others.mapM decodeSegment = .ok segments
        ↔ List.Forall₂ StandsFor others segments := by
      simp only [Except.mapM_eq_ok, decodeSegment_eq_ok, implies_true]
    constructor
    · intro h
      obtain ⟨found, hfound, h⟩ := Except.bind_eq_ok.mp h
      split at h
      · exact absurd h (by simp)
      rename_i hhost
      obtain ⟨more, hmore, h⟩ := Except.bind_eq_ok.mp h
      split at h
      · exact absurd h (by simp)
      rename_i hpath
      obtain ⟨rfl, rfl⟩ := Prod.mk.inj (Except.ok.inj h)
      rw [any_isEmpty_iff, not_not] at hpath
      refine ⟨rest, hbefore, List.forall_mem_cons.mpr ⟨by simpa using hhost, hpath⟩, ?_⟩
      rw [hpieces]
      exact .cons (decodeSegment_eq_ok.mp hfound) (hmapM.mp hmore)
    · rintro ⟨rest', hbefore', hne, hstands⟩
      obtain rfl : rest = rest' := List.append_cancel_left (hbefore.symm.trans hbefore')
      rw [hpieces, List.forall₂_cons] at hstands
      obtain ⟨hhost, hpath⟩ := List.forall_mem_cons.mp hne
      refine Except.bind_eq_ok.mpr ⟨host, decodeSegment_eq_ok.mpr hstands.1, ?_⟩
      rw [if_neg (by simpa using hhost)]
      refine Except.bind_eq_ok.mpr ⟨path, hmapM.mpr hstands.2, ?_⟩
      rw [if_neg (by rwa [any_isEmpty_iff, not_not])]

/-! ## Where its document is -/

/-- **Segments give the URL**, with the host to ask in place of the one that is named. -/
theorem location_of_names (h : Names did (host :: path)) : location settings did
    = .ok (documentUrl settings.scheme ((settings.hostOverride.map String.toList).getD host) path) := by
  have hauthority : ((settings.hostOverride.map String.toList).getD host)
      = (settings.hostOverride.getD (String.ofList host)).toList := by
    cases settings.hostOverride <;> simp
  unfold location
  rw [hostAndPath_eq_ok.mpr h, Except.ok_bind, hauthority]
  dsimp only
  generalize settings.hostOverride.getD (String.ofList host) = authority
  unfold documentUrl documentSegments documentPath
  cases path with
  | nil =>
    refine congrArg Except.ok (String.toList_injective ?_)
    simp [Text.joinWith, List.intercalate]
  | cons first more =>
    rw [List.isEmpty_cons, if_neg Bool.false_ne_true, if_neg (List.cons_ne_nil _ _)]
    refine congrArg Except.ok (String.toList_injective ?_)
    rw [List.cons_append, Text.joinWith_cons_cons, ← List.cons_append,
      Text.joinWith_concat (List.cons_ne_nil _ _)]
    simp [String.toList_append]

/-- A DID that names nothing has no location. -/
theorem location_eq_error (settings : Settings) (h : ¬ ∃ segments, Names did segments) :
    ∃ fault, location settings did = .error fault := by
  unfold location
  cases hread : hostAndPath did.toList with
  | error fault => exact ⟨fault, rfl⟩
  | ok found => exact absurd ⟨_, hostAndPath_eq_ok.mp hread⟩ h

/-- A DID names a host at least. -/
theorem Names.exists_cons (h : Names did segments) : ∃ host path, segments = host :: path := by
  obtain ⟨written, _, hne, _, hstands, _⟩ := h
  cases hstands with
  | nil => exact absurd rfl hne
  | cons => exact ⟨_, _, rfl⟩

/-! ## Which documents are one -/

/-- The URL is cut at its slashes into its segments if those of the DID have no slash in them. -/
theorem piecesAt_documentSegments (h : ∀ segment ∈ host :: path, '/' ∉ segment) :
    Text.piecesAt '/' (Text.joinWith '/' (documentSegments host path)) = documentSegments host path := by
  obtain ⟨hhost, hpath⟩ := List.forall_mem_cons.mp h
  refine Text.piecesAt_joinWith (List.cons_ne_nil _ _) ?_
  unfold documentSegments documentPath
  refine List.forall_mem_cons.mpr ⟨hhost, List.forall_mem_append.mpr
    ⟨?_, List.forall_mem_singleton.mpr (by decide)⟩⟩
  split
  · exact List.forall_mem_singleton.mpr (by decide)
  · exact hpath

theorem documentUrl_eq_iff {scheme : String} {host' : List Char} {path' : List (List Char)}
    (h : ∀ segment ∈ host :: path, '/' ∉ segment) (h' : ∀ segment ∈ host' :: path', '/' ∉ segment) :
    documentUrl scheme host path = documentUrl scheme host' path'
      ↔ host = host' ∧ documentPath path = documentPath path' := by
  constructor
  · intro heq
    have hlists := congrArg String.toList heq
    simp only [documentUrl, String.toList_append, String.toList_ofList, List.append_cancel_left_eq] at hlists
    have hpieces := congrArg (Text.piecesAt '/') hlists
    rw [piecesAt_documentSegments h, piecesAt_documentSegments h'] at hpieces
    obtain ⟨hhost, hrest⟩ := List.cons.inj hpieces
    exact ⟨hhost, List.append_cancel_right hrest⟩
  · rintro ⟨rfl, hpath⟩
    rw [documentUrl, documentUrl, documentSegments, documentSegments, hpath]

theorem documentPath_eq_iff {path' : List (List Char)} : documentPath path = documentPath path'
    ↔ path = path' ∨ (path = [] ∧ path' = [".well-known".toList])
      ∨ (path = [".well-known".toList] ∧ path' = []) := by
  unfold documentPath
  by_cases hpath : path = []
  · by_cases hpath' : path' = []
    · simp [hpath, hpath']
    · simp [hpath, hpath', eq_comm]
  · by_cases hpath' : path' = []
    · simp [hpath, hpath']
    · simp [hpath, hpath']

/-- **DIDs share a document exactly if their segments lead to one.** -/
theorem location_eq_iff {scheme : String} {did' : String} (h : Names did segments) (h' : Names did' segments')
    (hslash : ∀ segment ∈ segments ++ segments', '/' ∉ segment) :
    location ⟨scheme, none⟩ did = location ⟨scheme, none⟩ did' ↔ SameDocument segments segments' := by
  obtain ⟨host, path, rfl⟩ := h.exists_cons
  obtain ⟨host', path', rfl⟩ := h'.exists_cons
  obtain ⟨hplain, hplain'⟩ := List.forall_mem_append.mp hslash
  rw [location_of_names h, location_of_names h', Except.ok.injEq]
  simp only [Option.map_none, Option.getD_none]
  rw [documentUrl_eq_iff hplain hplain', documentPath_eq_iff]
  unfold SameDocument
  constructor
  · rintro ⟨rfl, rfl | ⟨rfl, rfl⟩ | ⟨rfl, rfl⟩⟩
    · exact Or.inl rfl
    · exact Or.inr ⟨host, Or.inl ⟨rfl, rfl⟩⟩
    · exact Or.inr ⟨host, Or.inr ⟨rfl, rfl⟩⟩
  · rintro (hsame | ⟨_, ⟨hbare, hknown⟩ | ⟨hknown, hbare⟩⟩)
    · obtain ⟨rfl, rfl⟩ := List.cons.inj hsame
      exact ⟨rfl, Or.inl rfl⟩
    · obtain ⟨rfl, rfl⟩ := List.cons.inj hbare
      obtain ⟨rfl, rfl⟩ := List.cons.inj hknown
      exact ⟨rfl, Or.inr (Or.inl ⟨rfl, rfl⟩)⟩
    · obtain ⟨rfl, rfl⟩ := List.cons.inj hbare
      obtain ⟨rfl, rfl⟩ := List.cons.inj hknown
      exact ⟨rfl, Or.inr (Or.inr ⟨rfl, rfl⟩)⟩

/-- **Which DIDs have a location, and which of them share one.** A DID has one exactly if it names segments,
and every other DID is a failure that names it. A fragment changes nothing. DIDs whose segments have no
slash in them share a document only if their segments lead to one, and asking one host for all documents
keeps the paths. -/
theorem location_determined :
    (∀ settings did, (∃ url, location settings did = .ok url) ↔ ∃ segments, Names did segments)
    ∧ (∀ settings did, (¬ ∃ segments, Names did segments) → ∃ reason,
      (location settings did).mapError (LocationFault.failure did) = .error (.didResolution did reason))
    ∧ (∀ settings did did', Text.before '#' did.toList = Text.before '#' did'.toList →
      location settings did = location settings did')
    ∧ (∀ scheme did did' segments segments', Names did segments → Names did' segments' →
      (∀ segment ∈ segments ++ segments', '/' ∉ segment) →
      (location ⟨scheme, none⟩ did = location ⟨scheme, none⟩ did' ↔ SameDocument segments segments'))
    ∧ ∀ scheme authority did host path, Names did (host :: path) →
      location ⟨scheme, none⟩ did = .ok (documentUrl scheme host path)
        ∧ location ⟨scheme, some authority⟩ did = .ok (documentUrl scheme authority.toList path) := by
  refine ⟨fun settings did => ⟨?_, ?_⟩, fun settings did h => ?_, fun settings did did' hbefore => ?_,
    fun _ _ _ _ _ h h' hslash => location_eq_iff h h' hslash,
    fun _ _ _ _ _ h => ⟨location_of_names h, location_of_names h⟩⟩
  · rintro ⟨url, hurl⟩
    by_contra hnames
    obtain ⟨fault, hfault⟩ := location_eq_error settings hnames
    exact absurd (hurl.symm.trans hfault) (by simp)
  · rintro ⟨segments, h⟩
    obtain ⟨host, path, rfl⟩ := h.exists_cons
    exact ⟨_, location_of_names h⟩
  · obtain ⟨fault, hfault⟩ := location_eq_error settings h
    exact ⟨fault.reason, by rw [hfault]; rfl⟩
  · unfold location hostAndPath
    rw [hbefore]

/-- A host without a path, and the same host with an escape in its name, the path that stands in for none,
and a fragment: their document is one. A port and a path of its own lead elsewhere, unless one host is asked
for all documents. -/
theorem location_determined_wellKnown :
    Names "did:web:example.com" ["example.com".toList]
      ∧ Names "did:web:example%2Ecom:.well-known#key-1" ["example.com".toList, ".well-known".toList]
      ∧ Names "did:web:example.com%3A8443:.well-known" ["example.com:8443".toList, ".well-known".toList]
      ∧ location ⟨"https", none⟩ "did:web:example%2Ecom:.well-known#key-1"
        = location ⟨"https", none⟩ "did:web:example.com"
      ∧ location ⟨"https", none⟩ "did:web:example.com%3A8443:.well-known"
        ≠ location ⟨"https", none⟩ "did:web:example.com"
      ∧ location ⟨"https", some "localhost"⟩ "did:web:example.com%3A8443:.well-known"
        = location ⟨"https", some "localhost"⟩ "did:web:example%2Ecom:.well-known#key-1" := by
  have hbare : Names "did:web:example.com" ["example.com".toList] :=
    hostAndPath_eq_ok.mp (by decide +kernel)
  have hknown : Names "did:web:example%2Ecom:.well-known#key-1" ["example.com".toList, ".well-known".toList] :=
    hostAndPath_eq_ok.mp (by decide +kernel)
  have hport : Names "did:web:example.com%3A8443:.well-known" ["example.com:8443".toList, ".well-known".toList] :=
    hostAndPath_eq_ok.mp (by decide +kernel)
  obtain ⟨_, _, _, hshared, hurl⟩ := location_determined
  refine ⟨hbare, hknown, hport, ?_, ?_, ?_⟩
  · exact (hshared _ _ _ _ _ hknown hbare (by decide)).mpr (Or.inr ⟨_, Or.inr ⟨rfl, rfl⟩⟩)
  · intro heq
    have hsame := (hshared _ _ _ _ _ hport hbare (by decide)).mp heq
    exact absurd hsame (by simp [SameDocument])
  · rw [(hurl _ _ _ _ _ hport).2, (hurl _ _ _ _ _ hknown).2]

end AuditTrail.Did
