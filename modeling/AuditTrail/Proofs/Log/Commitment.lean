import AuditTrail.Log.Commitment
import AuditTrail.Proofs.Json.Canonical
import AuditTrail.Proofs.Log.Entry
import AuditTrail.Proofs.Text.Bytes

/-!
# What the hash of an entry commits to

The projection of an entry keeps every field but the proof, and tells a missing kind from a kind and
a missing hash from a hash. So its canonical text commits to these fields, to the parameters up to
the spelling of numbers (`Entry.same_projection`).

No property of SHA-256 is used. Where two texts that differ have one digest, the statements say so
and name the texts among which the two are (`Collision`); what is concluded in the other case needs
no assumption.
-/

namespace AuditTrail

/-- Two different texts among some with one digest. -/
def Collision (texts : List String) : Prop :=
  ∃ s ∈ texts, ∃ t ∈ texts, s ≠ t
    ∧ Sha256.digest (Bytes.ofString s) = Sha256.digest (Bytes.ofString t)

theorem Collision.mono {texts texts' : List String} (hsub : texts ⊆ texts')
    (h : Collision texts) : Collision texts' := by
  obtain ⟨s, hs, t, ht, hne, hdigest⟩ := h
  exact ⟨s, hsub hs, t, hsub ht, hne, hdigest⟩

theorem textHash_injective {s t : String} (h : textHash s = textHash t) :
    Sha256.digest (Bytes.ofString s) = Sha256.digest (Bytes.ofString t) := by
  -- The name of the algorithm in front is the same, so the digits behind it are.
  have hlists := congrArg String.toList h
  simp only [textHash, String.toList_append] at hlists
  exact Bytes.hex_injective (String.toList_injective (List.append_cancel_left hlists))

/-- Values of one hash are the same up to numbers, or their texts collide. -/
theorem canonicalHash_eq {v w : Json} {texts : List String} (hv : v.WellFormed) (hw : w.WellFormed)
    (hvmem : v.canonical ∈ texts) (hwmem : w.canonical ∈ texts)
    (h : canonicalHash v = canonicalHash w) : v.SameUpToNumbers w ∨ Collision texts := by
  by_cases htexts : v.canonical = w.canonical
  · exact Or.inl ((Json.canonical_eq_iff hv hw).mp htexts)
  · exact Or.inr ⟨_, hvmem, _, hwmem, htexts, textHash_injective h⟩

namespace Entry

/-- Whether two entries agree on every field that is hashed: on the parameters up to the spelling of
numbers, on the others exactly. -/
structure SameCommitted (e f : Entry) : Prop where
  id : e.id = f.id
  timestamp : e.timestamp = f.timestamp
  kind : e.action.kind = f.action.kind
  name : e.action.name = f.action.name
  parameters : Json.SameUpToNumbers (.object e.action.parameters) (.object f.action.parameters)
  notificationHashes : e.notificationHashes = f.notificationHashes
  stateHash : e.stateHash = f.stateHash
  previousHash : e.previousHash = f.previousHash

/-! ## Projections in order -/

/-- A text that may be missing, as a value. -/
def textOrNull : Option String → Json
  | some s => .string s
  | none => .null

theorem projection_eq (e : Entry) :
    e.projection = .object [
      ("action", committedAction e.action),
      ("id", .string e.id),
      ("notificationHashes", .array (e.notificationHashes.map .string)),
      ("previousHash", textOrNull e.previousHash),
      ("stateHash", .string e.stateHash),
      ("timestamp", .string e.timestamp)] := by
  simp only [projection, Json.ofMembers, ByName.ofList, List.foldl, ByName.insert, String.reduceLT,
    String.reduceEq, reduceIte]
  cases e.previousHash <;> rfl

theorem committedAction_eq (a : Action) :
    committedAction a = .object (
      ("name", .string a.name) :: ("parameters", .object a.parameters)
        :: (a.kind.map fun k => ("type", Json.string k.name)).toList) := by
  obtain ⟨kind, name, parameters⟩ := a
  cases kind <;> simp only [committedAction, Json.ofMembers, ByName.ofList, List.foldl,
    ByName.insert, String.reduceLT, String.reduceEq, reduceIte, List.nil_append, List.cons_append,
    Option.map, Option.toList]

theorem wellFormed_committedAction {a : Action} (h : Json.WellFormed (.object a.parameters)) :
    (committedAction a).WellFormed := by
  refine Json.wellFormed_object.mpr ⟨ByName.sorted_ofList _, ?_⟩
  intro m hm
  have hmem := ByName.mem_of_mem_ofList hm
  cases hkind : a.kind with
  | none =>
    simp only [hkind, List.nil_append, List.mem_cons, List.not_mem_nil, or_false] at hmem
    rcases hmem with rfl | rfl
    · trivial
    · exact h
  | some k =>
    simp only [hkind, List.cons_append, List.nil_append, List.mem_cons, List.not_mem_nil,
      or_false] at hmem
    rcases hmem with rfl | rfl | rfl
    · trivial
    · trivial
    · exact h

theorem wellFormed_projection {e : Entry} (h : e.WellFormed) : e.projection.WellFormed := by
  refine Json.wellFormed_object.mpr ⟨ByName.sorted_ofList _, ?_⟩
  intro m hm
  have hmem := ByName.mem_of_mem_ofList hm
  simp only [List.mem_cons, List.not_mem_nil, or_false] at hmem
  rcases hmem with rfl | rfl | rfl | rfl | rfl | rfl
  · trivial
  · trivial
  · exact wellFormed_committedAction h
  · refine Json.wellFormed_array.mpr ?_
    intro v hv
    obtain ⟨s, _, rfl⟩ := List.mem_map.mp hv
    trivial
  · trivial
  · cases e.previousHash <;> trivial

/-! ## Injectivity -/

theorem kindName_injective {k k' : ActionKind} (h : k.name = k'.name) : k = k' := by
  cases k <;> cases k' <;> first | rfl | exact absurd h (by decide)

theorem same_textOrNull {s t : Option String} :
    (textOrNull s).SameUpToNumbers (textOrNull t) ↔ s = t := by
  cases s <;> cases t <;> simp [textOrNull, Json.SameUpToNumbers, Json.mapNumbers]

theorem same_texts {ss ts : List String} :
    Json.SameUpToNumbers (.array (ss.map .string)) (.array (ts.map .string)) ↔ ss = ts := by
  rw [Json.sameUpToNumbers_array, List.forall₂_map_left_iff, List.forall₂_map_right_iff]
  simp only [Json.sameUpToNumbers_string, List.forall₂_eq_eq_eq]

theorem same_kindMember {k k' : Option ActionKind} :
    List.Forall₂ (fun m m' : String × Json => m.1 = m'.1 ∧ m.2.SameUpToNumbers m'.2)
      (k.map fun k => ("type", Json.string k.name)).toList
      (k'.map fun k => ("type", Json.string k.name)).toList ↔ k = k' := by
  cases k <;> cases k' <;> simp [Json.sameUpToNumbers_string]
  exact ⟨kindName_injective, congrArg ActionKind.name⟩

theorem same_committedAction {a b : Action} :
    (committedAction a).SameUpToNumbers (committedAction b) ↔ a.kind = b.kind ∧ a.name = b.name
      ∧ Json.SameUpToNumbers (.object a.parameters) (.object b.parameters) := by
  rw [committedAction_eq, committedAction_eq, Json.sameUpToNumbers_object]
  simp only [List.forall₂_cons, true_and, Json.sameUpToNumbers_string, same_kindMember]
  tauto

/-- **A projection commits to the hashed fields, and to nothing else.** -/
theorem same_projection {e f : Entry} :
    e.projection.SameUpToNumbers f.projection ↔ SameCommitted e f := by
  rw [projection_eq, projection_eq, Json.sameUpToNumbers_object]
  simp only [List.forall₂_cons, true_and, Json.sameUpToNumbers_string, same_texts, same_textOrNull,
    same_committedAction]
  constructor
  · rintro ⟨⟨hkind, hname, hparameters⟩, hid, hnotifications, hprevious, hstate, htimestamp, _⟩
    exact ⟨hid, htimestamp, hkind, hname, hparameters, hnotifications, hstate, hprevious⟩
  · intro h
    exact ⟨⟨h.kind, h.name, h.parameters⟩, h.id, h.notificationHashes, h.previousHash, h.stateHash,
      h.timestamp, List.Forall₂.nil⟩

/-- Entries of one hash agree on every hashed field, or their texts collide. -/
theorem sameCommitted_of_hash {e f : Entry} {texts : List String} (he : e.WellFormed)
    (hf : f.WellFormed) (hemem : e.projection.canonical ∈ texts)
    (hfmem : f.projection.canonical ∈ texts) (h : e.hash = f.hash) :
    SameCommitted e f ∨ Collision texts := by
  rcases canonicalHash_eq (wellFormed_projection he) (wellFormed_projection hf) hemem hfmem h
    with hsame | hcollision
  · exact Or.inl (same_projection.mp hsame)
  · exact Or.inr hcollision

/-- The spelling of numbers and the proof do not change the hash. -/
theorem SameCommitted.hash_eq {e f : Entry} (he : e.WellFormed) (hf : f.WellFormed)
    (h : SameCommitted e f) : e.hash = f.hash :=
  congrArg textHash ((Json.canonical_eq_iff (wellFormed_projection he)
    (wellFormed_projection hf)).mpr (same_projection.mpr h))

end Entry

end AuditTrail
