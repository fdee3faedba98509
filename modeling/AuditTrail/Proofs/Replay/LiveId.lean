import AuditTrail.Log.Commitment
import AuditTrail.Proofs.Replay.Addressed

/-!
# What is left of a live id

Putting the audited id in place of the live one touches the id of an instance and the URLs of its
actions, and only the strings there (`KeepsMember`). Where the live id is a whole segment it is replaced,
and the segments it does not occur in stay (`get?_actionsKey_withAuditedId`): an occurrence would need a
slash to reach from one segment into the next.

So two runs of one template under different live ids leave the same state behind, the template under the
audited id (`NamesInstance`).
-/

namespace AuditTrail.Replay

open Template (instantiate Plain)

/-! ## What is kept -/

/-- The URL of an action keeps its name, and its value if that is not a text. -/
structure KeepsUrl (before after : String × Json) : Prop where
  name : after.1 = before.1
  notText : before.2.string? = none → after.2 = before.2

/-- A member of a state keeps its name, and its value if that is neither the id of the instance nor holds
the URLs of its actions. -/
structure KeepsMember (before after : String × Json) : Prop where
  name : after.1 = before.1
  elsewhere : before.1 ≠ idKey → before.1 ≠ actionsKey → after.2 = before.2
  notText : before.1 = idKey → before.2.string? = none → after.2 = before.2
  notActions : before.1 = actionsKey → before.2.isObject = false → after.2 = before.2
  urls : before.1 = actionsKey → ∀ actions, before.2 = .object actions →
    ∃ actions', after.2 = .object actions' ∧ List.Forall₂ KeepsUrl actions actions'

/-- A state keeps its members, and is kept as a whole if it has none. -/
inductive KeepsState : Json → Json → Prop
  | members {members members' : List (String × Json)} (h : List.Forall₂ KeepsMember members members') :
      KeepsState (.object members) (.object members')
  | notObject {state : Json} (h : state.isObject = false) : KeepsState state state

theorem KeepsUrl.refl (url : String × Json) : KeepsUrl url url := ⟨rfl, fun _ => rfl⟩

theorem KeepsMember.refl (m : String × Json) : KeepsMember m m where
  name := rfl
  elsewhere _ _ := rfl
  notText _ _ := rfl
  notActions _ _ := rfl
  urls _ actions hactions := ⟨actions, hactions, List.forall₂_same.mpr fun url _ => KeepsUrl.refl url⟩

theorem KeepsState.refl (state : Json) : KeepsState state state := by
  cases state with
  | object members => exact .members (List.forall₂_same.mpr fun m _ => KeepsMember.refl m)
  | _ => exact .notObject rfl

section

variable {live audited : String}

theorem replaceIdIn_idKey (v : Json) : replaceIdIn live audited idKey v = replaceId live audited v :=
  if_pos rfl

theorem replaceIdIn_actionsKey (actions : List (String × Json)) :
    replaceIdIn live audited actionsKey (.object actions)
      = .object (actions.map fun (name, url) => (name, replaceId live audited url)) := rfl

theorem replaceIdIn_of_not_object {v : Json} (h : v.isObject = false) :
    replaceIdIn live audited actionsKey v = v := by
  cases v with
  | object actions => simp [Json.isObject] at h
  | _ => rfl

theorem replaceIdIn_of_ne {name : String} (hid : name ≠ idKey) (hactions : name ≠ actionsKey)
    (v : Json) : replaceIdIn live audited name v = v := by
  unfold replaceIdIn
  rw [if_neg hid, if_neg hactions]

theorem keepsMember_replaceIdIn (name : String) (v : Json) :
    KeepsMember (name, v) (name, replaceIdIn live audited name v) where
  name := rfl
  elsewhere hid hactions := replaceIdIn_of_ne hid hactions v
  notText hname htext := by
    obtain rfl : name = idKey := hname
    rw [replaceIdIn_idKey]
    exact replaceId_of_not_string htext
  notActions hname hobject := by
    obtain rfl : name = actionsKey := hname
    exact replaceIdIn_of_not_object hobject
  urls hname actions hv := by
    obtain rfl : name = actionsKey := hname
    obtain rfl : v = .object actions := hv
    refine ⟨_, replaceIdIn_actionsKey actions, List.forall₂_map_right_iff.mpr ?_⟩
    exact List.forall₂_same.mpr fun url _ => ⟨rfl, replaceId_of_not_string⟩

/-- **Only the texts that name an instance change.** -/
theorem keepsState_withAuditedId (state : Json) : KeepsState state (withAuditedId live audited state) := by
  unfold withAuditedId
  split
  · exact KeepsState.refl state
  · cases state with
    | object members =>
      refine .members (List.forall₂_map_right_iff.mpr ?_)
      exact List.forall₂_same.mpr fun m _ => keepsMember_replaceIdIn m.1 m.2
    | _ => exact .notObject rfl

end

/-! ## What is replaced -/

/-- A segment is the live id, or the live id does not occur in it. -/
def Segmented (live url : String) : Prop :=
  ∀ segment ∈ Text.piecesAt '/' url.toList, segment = live.toList ∨ ¬ live.toList <:+: segment

/-- A URL with the segments that are the live id replaced. -/
def renamed (live audited url : String) : String :=
  String.ofList <| Text.joinWith '/' <| (Text.piecesAt '/' url.toList).map fun segment =>
    if segment = live.toList then audited.toList else segment

section

variable {live audited : String} {state : Json}

theorem renamed_self (live url : String) : renamed live live url = url := by
  have hsegment (segment : List Char) :
      (if segment = live.toList then live.toList else segment) = segment := by
    split
    · exact Eq.symm ‹_›
    · rfl
  simp only [renamed, hsegment, List.map_id', Text.joinWith_piecesAt, String.ofList_toList]

theorem replaceId_of_segmented (hslash : '/' ∉ live.toList) {url : String} (h : Segmented live url) :
    replaceId live audited (.string url) = .string (renamed live audited url) := by
  have hne := Text.piecesAt_ne_nil '/' url.toList
  unfold renamed
  rw [← Text.replaceAll_joinWith hne hslash h, Text.joinWith_piecesAt]
  rfl

/-- The id of a state that has the live id is the audited one. -/
theorem get?_idKey_withAuditedId (h : state.get? idKey = some (.string live)) :
    (withAuditedId live audited state).get? idKey = some (.string audited) := by
  rw [get?_withAuditedId, h, Option.map_some]
  split
  · rename_i heq
    rw [heq]
  · rw [replaceIdIn_idKey, replaceId, Text.replaceAll_piece (Or.inl rfl), if_pos rfl,
      String.ofList_toList]

/-- In the URLs of a state, the segments that are the live id are replaced. -/
theorem get?_actionsKey_withAuditedId (hslash : '/' ∉ live.toList) {actions : List (String × Json)}
    (h : state.get? actionsKey = some (.object actions)) :
    ∃ actions', (withAuditedId live audited state).get? actionsKey = some (.object actions')
      ∧ ∀ action url, ByName.find? action actions = some (.string url) → Segmented live url →
        ByName.find? action actions' = some (.string (renamed live audited url)) := by
  rw [get?_withAuditedId, h, Option.map_some]
  -- Nothing is done where the ids are the same, and there renaming does nothing either.
  split
  · rename_i heq
    subst heq
    exact ⟨actions, rfl, fun action url hurl _ => by rw [hurl, renamed_self]⟩
  · rw [replaceIdIn_actionsKey]
    refine ⟨_, rfl, fun action url hurl hsegmented => ?_⟩
    rw [ByName.find?_map (fun _ => replaceId live audited), hurl, Option.map_some,
      replaceId_of_segmented hslash hsegmented]

end

/-! ## What two runs have in common -/

/-- A template names the instance by its id and in the URLs of its actions, and the live id occurs
nowhere else there. -/
def NamesInstance (live : String) : Json → Prop
  | .object members => Addressed live members
  | template => Plain template

/-- Under the audited id, a run of a template is the template under that id, whatever the live id was. -/
theorem NamesInstance.withAuditedId_eq {live : String} {template : Json} (hslash : '/' ∉ live.toList)
    (h : NamesInstance live template) (audited : String) :
    withAuditedId live audited (instantiate live template) = instantiate audited template := by
  cases template with
  | object members => exact withAuditedId_instantiate hslash h
  | _ =>
    rw [Template.instantiate_of_plain h, Template.instantiate_of_plain h]
    unfold withAuditedId
    split <;> rfl

/-- **What is left of a live id.** Putting the audited id in its place leaves everything but the texts
that name the instance as it was. The id of a state that has the live id becomes the audited one, and the
segments of its URLs that are the live id are replaced. So a template that two runs have given different
live ids is the same value after both of them, the template under the audited id, and has the same hash. -/
theorem liveId_forgotten :
    (∀ live audited state, KeepsState state (withAuditedId live audited state))
    ∧ (∀ live audited state, '/' ∉ live.toList → state.get? idKey = some (.string live) →
      (withAuditedId live audited state).get? idKey = some (.string audited)
      ∧ ∀ actions, state.get? actionsKey = some (.object actions) →
        ∃ actions', (withAuditedId live audited state).get? actionsKey = some (.object actions')
          ∧ ∀ action url, ByName.find? action actions = some (.string url) → Segmented live url →
            ByName.find? action actions' = some (.string (renamed live audited url)))
    ∧ (∀ live live' audited template, '/' ∉ live.toList → '/' ∉ live'.toList →
      NamesInstance live template → NamesInstance live' template →
      withAuditedId live audited (instantiate live template) = instantiate audited template
      ∧ withAuditedId live' audited (instantiate live' template) = instantiate audited template
      ∧ canonicalHash (withAuditedId live audited (instantiate live template))
        = canonicalHash (withAuditedId live' audited (instantiate live' template))) := by
  refine ⟨fun live audited state => keepsState_withAuditedId state, ?_, ?_⟩
  · intro live audited state hslash hid
    exact ⟨get?_idKey_withAuditedId hid, fun actions hactions => get?_actionsKey_withAuditedId hslash hactions⟩
  · intro live live' audited template hslash hslash' h h'
    have hleft := h.withAuditedId_eq hslash audited
    have hright := h'.withAuditedId_eq hslash' audited
    exact ⟨hleft, hright, by rw [hleft, hright]⟩

/-- A template with one action. -/
def payable : Json :=
  .object [("@actions", .object [("pay", .string "/\x7b\x7bid\x7d\x7d/pay")]),
    ("@id", .string Template.placeholder), ("note", .string "live-1")]

theorem namesInstance_payable {live : String} (h : ¬ live.toList <:+: [])
    (hpay : ¬ live.toList <:+: "pay".toList) : NamesInstance live payable := by
  have hnote : Plain (.string "live-1") := List.forall_mem_singleton.mpr (by decide)
  have hpieces : Text.piecesAt '/' "/\x7b\x7bid\x7d\x7d/pay".toList
      = [[], Template.placeholder.toList, "pay".toList] := by decide
  refine List.forall_mem_cons.mpr ⟨.actions _ (List.forall_mem_singleton.mpr (.segments _ ?_)),
    List.forall_mem_cons.mpr ⟨.id _ (Or.inl rfl), List.forall_mem_singleton.mpr
      (.other _ _ (fun h => absurd h (by decide)) (fun _ => rfl) hnote)⟩⟩
  rw [hpieces]
  exact List.forall_mem_cons.mpr ⟨Or.inr ⟨by decide, h⟩, List.forall_mem_cons.mpr ⟨Or.inl rfl,
    List.forall_mem_singleton.mpr (Or.inr ⟨by decide, hpay⟩)⟩⟩

/-- Two runs of a template, and the state of one of them. -/
theorem liveId_forgotten_payable :
    KeepsState (instantiate "live-1" payable)
      (withAuditedId "live-1" "audited-9" (instantiate "live-1" payable))
    ∧ (withAuditedId "live-1" "audited-9" (instantiate "live-1" payable)).get? idKey
      = some (.string "audited-9")
    ∧ (∃ actions, (withAuditedId "live-1" "audited-9" (instantiate "live-1" payable)).get? actionsKey
        = some (.object actions) ∧ ByName.find? "pay" actions = some (.string "/audited-9/pay"))
    ∧ canonicalHash (withAuditedId "live-1" "audited-9" (instantiate "live-1" payable))
      = canonicalHash (withAuditedId "live-2" "audited-9" (instantiate "live-2" payable)) := by
  obtain ⟨hkept, hreplaced, hruns⟩ := liveId_forgotten
  obtain ⟨hid, hactions⟩ := hreplaced "live-1" "audited-9" (instantiate "live-1" payable) (by decide) rfl
  obtain ⟨actions, hfound, hurls⟩ := hactions [("pay", .string "/live-1/pay")] rfl
  have hpay : renamed "live-1" "audited-9" "/live-1/pay" = "/audited-9/pay" := by decide
  refine ⟨hkept _ _ _, hid, ⟨actions, hfound, ?_⟩, ?_⟩
  · rw [← hpay]
    exact hurls "pay" "/live-1/pay" rfl (by unfold Segmented; decide)
  · exact (hruns "live-1" "live-2" "audited-9" payable (by decide) (by decide)
      (namesInstance_payable (by decide) (by decide))
      (namesInstance_payable (by decide) (by decide))).2.2

end AuditTrail.Replay
