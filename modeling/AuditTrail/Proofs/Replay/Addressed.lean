import AuditTrail.Proofs.Issuer.Template
import AuditTrail.Proofs.Replay.Normalize

/-!
# Where a template speaks of its instance

A template names the instance in two places: its id, which is the placeholder as a whole, and the URLs of
its actions, of which the placeholder is a whole segment (`Addressed`). Under a live id that does not
occur in it otherwise, such a template can be instantiated with the live id and brought back to the
audited one:

> under the audited id, the live state is the audited state (`withAuditedId_instantiate`).

The projection to the names of a reference keeps a state exactly if it has no other names, up to the
spelling of numbers (`sameUpToNumbers_projected`).
-/

namespace AuditTrail.Replay

open Template (placeholder fill instantiate Plain)

/-! ## Segments -/

/-- A segment is the placeholder, or neither the placeholder nor the live id occurs in it. -/
def IsSegment (live : String) (segment : List Char) : Prop :=
  segment = placeholder.toList ∨ ¬ placeholder.toList <:+: segment ∧ ¬ live.toList <:+: segment

/-- A segment with an id in place of the placeholder. -/
def fillSegment (id : String) (segment : List Char) : List Char :=
  if segment = placeholder.toList then id.toList else segment

section

variable {live audited id : String} {segment : List Char}

theorem IsSegment.fill (h : IsSegment live segment) :
    Text.replaceAll placeholder.toList id.toList segment = fillSegment id segment :=
  Text.replaceAll_piece (h.imp_right And.left)

/-- A segment with the live id in it is the live id. -/
theorem IsSegment.filled (h : IsSegment live segment) :
    fillSegment live segment = live.toList ∨ ¬ live.toList <:+: fillSegment live segment := by
  unfold fillSegment
  rcases h with rfl | ⟨hplaceholder, hlive⟩
  · exact Or.inl (if_pos rfl)
  · have hne : segment ≠ placeholder.toList := fun heq => hplaceholder (heq ▸ List.infix_rfl)
    rw [if_neg hne]
    exact Or.inr hlive

theorem IsSegment.refilled (h : IsSegment live segment) :
    (if fillSegment live segment = live.toList then audited.toList else fillSegment live segment)
      = fillSegment audited segment := by
  unfold fillSegment
  rcases h with rfl | ⟨hplaceholder, hlive⟩
  · simp
  · have hne : segment ≠ placeholder.toList := fun heq => hplaceholder (heq ▸ List.infix_rfl)
    have hne' : segment ≠ live.toList := fun heq => hlive (heq ▸ List.infix_rfl)
    simp only [if_neg hne, if_neg hne']

/-- The live id of a text that is one segment is replaced by the audited one. -/
theorem replaceAll_fill {text : String} (h : IsSegment live text.toList) :
    Text.replaceAll live.toList audited.toList (fill live text).toList = (fill audited text).toList := by
  rw [Template.fill, Template.fill, String.toList_ofList, String.toList_ofList, h.fill, h.fill,
    Text.replaceAll_piece h.filled, h.refilled]

theorem fill_segments {text : String}
    (h : ∀ segment ∈ Text.piecesAt '/' text.toList, IsSegment live segment) :
    (fill id text).toList
      = Text.joinWith '/' ((Text.piecesAt '/' text.toList).map (fillSegment id)) := by
  rw [Template.fill, String.toList_ofList]
  conv_lhs => rw [← Text.joinWith_piecesAt '/' text.toList]
  exact Text.replaceAll_joinWith (Text.piecesAt_ne_nil _ _) (by decide)
    fun segment hsegment => (h segment hsegment).imp_right And.left

/-- And so is the live id in the segments of a text. -/
theorem replaceAll_fill_segments {text : String} (hslash : '/' ∉ live.toList)
    (h : ∀ segment ∈ Text.piecesAt '/' text.toList, IsSegment live segment) :
    Text.replaceAll live.toList audited.toList (fill live text).toList = (fill audited text).toList := by
  rw [fill_segments h, fill_segments h,
    Text.replaceAll_joinWith (by simpa using Text.piecesAt_ne_nil '/' text.toList) hslash, List.map_map]
  · congr 1
    exact List.map_congr_left fun segment hsegment => (h segment hsegment).refilled
  · intro filled hfilled
    obtain ⟨segment, hsegment, rfl⟩ := List.mem_map.mp hfilled
    exact (h segment hsegment).filled

end

/-! ## Templates -/

/-- The URL of an action in a template: the placeholder is a segment of it wherever it occurs. -/
inductive AddressedUrl (live : String) : Json → Prop
  | segments (text : String) (h : ∀ segment ∈ Text.piecesAt '/' text.toList, IsSegment live segment) :
      AddressedUrl live (.string text)
  | other (v : Json) (htext : v.string? = none) (h : Plain v) : AddressedUrl live v

/-- A member of a template: the placeholder is the id, or a segment of the URL of an action. -/
inductive AddressedMember (live : String) : String → Json → Prop
  | id (text : String) (h : IsSegment live text.toList) : AddressedMember live idKey (.string text)
  | actions (urls : List (String × Json)) (h : ∀ m ∈ urls, AddressedUrl live m.2) :
      AddressedMember live actionsKey (.object urls)
  | other (name : String) (v : Json) (hid : name = idKey → v.string? = none)
      (hactions : name = actionsKey → v.isObject = false) (h : Plain v) : AddressedMember live name v

/-- The placeholder stands in the members of a template where the instance is named, and the live id
nowhere near it. -/
def Addressed (live : String) (members : List (String × Json)) : Prop :=
  ∀ m ∈ members, AddressedMember live m.1 m.2

section

variable {live audited : String}

theorem replaceId_of_not_string {v : Json} (h : v.string? = none) : replaceId live audited v = v := by
  cases v with
  | string s => simp [Json.string?] at h
  | _ => rfl

theorem replaceId_instantiate_url (hslash : '/' ∉ live.toList) {v : Json}
    (h : AddressedUrl live v) :
    replaceId live audited (instantiate live v) = instantiate audited v := by
  cases h with
  | segments text h =>
    show Json.string _ = Json.string _
    rw [replaceAll_fill_segments hslash h, String.ofList_toList]
  | other v htext h =>
    rw [Template.instantiate_of_plain h, Template.instantiate_of_plain h, replaceId_of_not_string htext]

theorem replaceIdIn_instantiate (hslash : '/' ∉ live.toList) {name : String}
    {v : Json} (h : AddressedMember live name v) :
    replaceIdIn live audited name (instantiate live v) = instantiate audited v := by
  cases h with
  | id text h =>
    show Json.string _ = Json.string _
    rw [replaceAll_fill h, String.ofList_toList]
  | actions urls h =>
    rw [Template.instantiate_object, Template.instantiate_object]
    show Json.object _ = Json.object _
    rw [List.map_map]
    congr 1
    refine List.map_congr_left fun m hm => ?_
    exact congrArg (Prod.mk m.1) (replaceId_instantiate_url hslash (h m hm))
  | other name v hid hactions h =>
    rw [Template.instantiate_of_plain h, Template.instantiate_of_plain h]
    unfold replaceIdIn
    split
    · rename_i hname
      exact replaceId_of_not_string (hid hname)
    · split
      · rename_i hname
        split
        · exact absurd (hactions hname) (by simp [Json.isObject])
        · rfl
      · rfl

/-- **Under the audited id, the live state is the audited state.** -/
theorem withAuditedId_instantiate (hslash : '/' ∉ live.toList)
    {members : List (String × Json)} (h : Addressed live members) :
    withAuditedId live audited (instantiate live (.object members))
      = instantiate audited (.object members) := by
  unfold withAuditedId
  split
  -- Under the same id nothing is replaced, and nothing has to be.
  · rename_i heq
    rw [heq]
  · rw [Template.instantiate_object, Template.instantiate_object]
    show Json.object _ = Json.object _
    rw [List.map_map]
    congr 1
    refine List.map_congr_left fun m hm => ?_
    exact congrArg (Prod.mk m.1) (replaceIdIn_instantiate hslash (h m hm))

end

/-! ## Names that are kept -/

/-- A reference keeps the members of a state: it has all their names, or no names at all. -/
def Keeps (names members : List (String × Json)) : Prop :=
  names = [] ∨ ∀ m ∈ members, m.1 ∈ ByName.names names

theorem projected_of_keeps {names members : List (String × Json)} (h : Keeps names members) :
    projected (.object names) (.object members) = .object members := by
  by_cases hnames : names = []
  · rw [hnames]
    rfl
  · rw [projected_object hnames, List.filter_eq_self.mpr]
    intro m hm
    exact ByName.has_iff.mpr (h.resolve_left hnames m hm)

/-- **What a reference does not keep is missed.** -/
theorem sameUpToNumbers_projected {names members : List (String × Json)} :
    (projected (.object names) (.object members)).SameUpToNumbers (.object members)
      ↔ Keeps names members := by
  constructor
  · intro h
    by_cases hnames : names = []
    · exact Or.inl hnames
    · rw [projected_object hnames, Json.sameUpToNumbers_object] at h
      have hall := List.length_filter_eq_length_iff.mp h.length_eq
      exact Or.inr fun m hm => ByName.has_iff.mp (hall m hm)
  · intro h
    rw [projected_of_keeps h]
    rfl

end AuditTrail.Replay
