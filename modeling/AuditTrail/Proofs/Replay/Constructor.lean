import AuditTrail.Proofs.Log.Entry
import AuditTrail.Proofs.Replay.Requests
import AuditTrail.Proofs.Text.Pieces

/-!
# What an instance is constructed with

Three things go into the body of a constructor: the parties, the parameters that have a name, and, in place of
those that have none, the fields of the final state. They are put into one table, the fields first, so what is
found under a name is the last of them that has it (`get?_constructorBody`). `Constructs` says the same without
the table, name by name.

The parties of the body are also those whose tokens are tried first, as long as the instance is constructed by
the first entry.

> Every constructor call carries the body that belongs to its entry and the final state (`constructor_sent`).
-/

namespace AuditTrail.Replay

open Http (Exchange Request Response Reply)
open Http.Exchange (All Generates all_pure generates_bind generates_pure)

/-! ## Positional names -/

/-- Whether a name is `arg` and a number in the digits from `0` to `9`. -/
def Positional (name : String) : Prop :=
  ∃ digits : List Char, digits ≠ [] ∧ (∀ c ∈ digits, '0' ≤ c ∧ c ≤ '9') ∧ name.toList = "arg".toList ++ digits

theorem isPositional_iff {name : String} : isPositional name = true ↔ Positional name := by
  unfold isPositional Positional
  simp only [← Text.dropStart?_eq_some]
  cases Text.dropStart? "arg".toList name.toList with
  | none => simp
  | some rest => simp

theorem isPositional_eq_false {name : String} : isPositional name = false ↔ ¬ Positional name := by
  rw [← isPositional_iff, Bool.not_eq_true]

/-! ## The parties -/

theorem isEmptyValue_iff {v : Json} : isEmptyValue v = true ↔ v ∈ [Json.null, .object [], .array []] := by
  cases v <;> simp [isEmptyValue]

theorem auditedParties?_of_state {state parties : Json} {parameters : Json.Members}
    (h : state.get? partiesKey = some parties) (hfull : parties ∉ [Json.null, .object [], .array []]) :
    auditedParties? state parameters = some parties := by
  have hempty : isEmptyValue parties = false := by
    rw [← isEmptyValue_iff, Bool.not_eq_true] at hfull
    exact hfull
  rw [auditedParties?, h]
  simp [hempty]

theorem auditedParties?_of_empty {state : Json} {parameters : Json.Members}
    (h : ∀ parties, state.get? partiesKey = some parties → parties ∈ [Json.null, .object [], .array []]) :
    auditedParties? state parameters = parameters.find? partiesKey := by
  rw [auditedParties?]
  cases hparties : state.get? partiesKey with
  | none => rfl
  | some parties => simp [isEmptyValue_iff.mpr (h parties hparties)]

/-! ## The table -/

theorem normalizedMembers_eq (members : Json.Members) :
    normalizedMembers members = members.map fun (name, v) => (name, normalized v) := by
  induction members with
  | nil => rfl
  | cons m rest ih =>
    obtain ⟨name, v⟩ := m
    rw [normalizedMembers, ih, List.map_cons]

theorem find?_normalizedMembers (name : String) (members : Json.Members) :
    ByName.find? name (normalizedMembers members) = (ByName.find? name members).map normalized := by
  rw [normalizedMembers_eq]
  exact ByName.find?_map (fun _ => normalized) name members

theorem sorted_normalizedMembers {members : Json.Members} (h : ByName.Sorted members) :
    ByName.Sorted (normalizedMembers members) := by
  rw [normalizedMembers_eq]
  exact ByName.sorted_map normalized h

/-- The parameters that have a name of their own. -/
def namedParameters (parameters : Json.Members) : Json.Members :=
  parameters.filter fun m => m.1 != partiesKey && !isPositional m.1

/-- Whether some parameter has none. -/
def hasPositional (parameters : Json.Members) : Bool :=
  parameters.any fun m => m.1 != partiesKey && isPositional m.1

theorem not_positional_partiesKey : ¬ Positional partiesKey := by
  rw [← isPositional_eq_false]
  rfl

theorem hasPositional_iff {parameters : Json.Members} :
    hasPositional parameters = true ↔ ∃ name ∈ parameters.names, Positional name := by
  unfold hasPositional ByName.names
  simp only [List.any_eq_true, Bool.and_eq_true, bne_iff_ne, isPositional_iff, List.mem_map]
  constructor
  · rintro ⟨m, hm, _, hpositional⟩
    exact ⟨m.1, ⟨m, hm, rfl⟩, hpositional⟩
  · rintro ⟨_, ⟨m, hm, rfl⟩, hpositional⟩
    refine ⟨m, hm, ?_, hpositional⟩
    intro hparties
    exact not_positional_partiesKey (hparties ▸ hpositional)

section

variable {parameters : Json.Members} {state : Json} {name : String}

theorem find?_namedParameters (hkey : name ≠ partiesKey) (hname : ¬ Positional name) :
    ByName.find? name (namedParameters parameters) = ByName.find? name parameters := by
  apply ByName.find?_filter (p := fun n => n != partiesKey && !isPositional n)
  simp [hkey, isPositional_eq_false.mpr hname]

theorem find?_namedParameters_eq_none (h : name = partiesKey ∨ Positional name) :
    ByName.find? name (namedParameters parameters) = none := by
  apply ByName.find?_filter_eq_none (p := fun n => n != partiesKey && !isPositional n)
  rcases h with rfl | hname
  · simp
  · simp [isPositional_iff.mpr hname]

/-- No field whose name starts with an at sign is taken from the state, the others all are. -/
theorem find?_stateFields : ByName.find? name (stateFields state)
    = if name.toList.head? = some '@' then none else state.get? name := by
  cases state with
  | object members =>
    by_cases hname : name.toList.head? = some '@'
    · rw [if_pos hname]
      apply ByName.find?_filter_eq_none (p := fun n => n.toList.head? != some '@')
      simp [hname]
    · rw [if_neg hname]
      apply ByName.find?_filter (p := fun n => n.toList.head? != some '@')
      simpa using hname
  | _ => simp [stateFields, Json.get?, ByName.find?]

theorem sorted_stateFields (h : state.WellFormed) : ByName.Sorted (stateFields state) := by
  cases state with
  | object members => exact ByName.sorted_filter (Json.wellFormed_object.mp h).1
  | _ => exact List.Pairwise.nil

/-- The member with the parties, if there are any. -/
def partiesMember (parties? : Option Json) : Json.Members :=
  parties?.toList.map fun parties => (partiesKey, parties)

theorem constructorBody_eq (action : Action) (state : Json) : constructorBody action state
    = .ofMembers ((if hasPositional action.parameters then normalizedMembers (stateFields state) else [])
      ++ normalizedMembers (namedParameters action.parameters)
      ++ partiesMember (auditedParties? state action.parameters)) := by
  unfold constructorBody
  cases auditedParties? state action.parameters <;> rfl

theorem find?_partiesMember (parties? : Option Json) :
    ByName.find? name (ByName.ofList (partiesMember parties?)) = if name = partiesKey then parties? else none := by
  cases parties? with
  | none =>
    rw [ite_self]
    rfl
  | some parties => exact ByName.find?_cons name partiesKey parties []

/-- What the body of a constructor has under a name: the parties, else a parameter, else a field. -/
theorem get?_constructorBody {action : Action} (hparameters : ByName.Sorted action.parameters)
    (hstate : state.WellFormed) (name : String) : (constructorBody action state).get? name
      = (if name = partiesKey then auditedParties? state action.parameters else none).or
        (((ByName.find? name (namedParameters action.parameters)).map normalized).or
          (if hasPositional action.parameters then (ByName.find? name (stateFields state)).map normalized
            else none)) := by
  have hnamed : ByName.ofList (normalizedMembers (namedParameters action.parameters))
      = normalizedMembers (namedParameters action.parameters) :=
    ByName.ofList_eq_self (sorted_normalizedMembers (ByName.sorted_filter hparameters))
  have hfields : ByName.ofList (normalizedMembers (stateFields state)) = normalizedMembers (stateFields state) :=
    ByName.ofList_eq_self (sorted_normalizedMembers (sorted_stateFields hstate))
  -- What was put into the table last is found first: the parties, then the parameters, then the fields.
  rw [constructorBody_eq, Json.ofMembers, Json.get?, ByName.find?_ofList_append, ByName.find?_ofList_append,
    find?_partiesMember, hnamed, find?_normalizedMembers]
  congr 2
  split
  · rw [hfields, find?_normalizedMembers]
  · rfl

end

/-! ## The body -/

/-- What an instance is constructed with, name by name. -/
structure Constructs (parameters : Json.Members) (state : Json) (body : Json.Members) : Prop where
  sorted : ByName.Sorted body
  /-- The parties are those of the state as they are. -/
  stateParties : ∀ parties, state.get? partiesKey = some parties →
    parties ∉ [Json.null, .object [], .array []] → body.find? partiesKey = some parties
  /-- If these say nothing, the parties are those among the parameters, also if they say nothing either. -/
  ownParties : (∀ parties, state.get? partiesKey = some parties → parties ∈ [Json.null, .object [], .array []]) →
    body.find? partiesKey = parameters.find? partiesKey
  named : ∀ name v, name ≠ partiesKey → ¬ Positional name → parameters.find? name = some v →
    body.find? name = some (normalized v)
  /-- For parameters without a name there are the fields of the state, under the names left to them. -/
  fields : ∀ name, name ≠ partiesKey → Positional name ∨ parameters.find? name = none →
    (∃ parameter ∈ parameters.names, Positional parameter) → name.toList.head? ≠ some '@' →
    body.find? name = (state.get? name).map normalized
  others : ∀ name, name ≠ partiesKey → Positional name ∨ parameters.find? name = none →
    (∀ parameter ∈ parameters.names, ¬ Positional parameter) ∨ name.toList.head? = some '@' →
    body.find? name = none

section

variable {s : Setup} {action : Action} {state : Json}

/-- Neither a parameter nor a field is sent as the parties. -/
theorem get?_partiesKey (hparameters : ByName.Sorted action.parameters) (hstate : state.WellFormed) :
    (constructorBody action state).get? partiesKey = auditedParties? state action.parameters := by
  have hnamed : ByName.find? partiesKey (namedParameters action.parameters) = none :=
    find?_namedParameters_eq_none (Or.inl rfl)
  have hfields : ByName.find? partiesKey (stateFields state) = none := by
    rw [find?_stateFields]
    exact if_pos rfl
  rw [get?_constructorBody hparameters hstate, if_pos rfl, hnamed, hfields]
  simp

theorem get?_of_ne (hparameters : ByName.Sorted action.parameters) (hstate : state.WellFormed) {name : String}
    (hkey : name ≠ partiesKey) : (constructorBody action state).get? name
      = ((ByName.find? name (namedParameters action.parameters)).map normalized).or
        (if hasPositional action.parameters then (ByName.find? name (stateFields state)).map normalized
          else none) := by
  rw [get?_constructorBody hparameters hstate, if_neg hkey]
  rfl

theorem find?_namedParameters_of_left {parameters : Json.Members} {name : String}
    (h : Positional name ∨ parameters.find? name = none) : ByName.find? name (namedParameters parameters) = none := by
  by_cases hname : name = partiesKey ∨ Positional name
  · exact find?_namedParameters_eq_none hname
  · rw [not_or] at hname
    rw [find?_namedParameters hname.1 hname.2]
    exact h.resolve_left hname.2

/-- **The body of a constructor is what belongs to its parameters and the state.** -/
theorem constructs_of_eq {body : Json.Members} (hparameters : ByName.Sorted action.parameters)
    (hstate : state.WellFormed) (h : constructorBody action state = .object body) :
    Constructs action.parameters state body := by
  have hparties := get?_partiesKey hparameters hstate
  rw [h] at hparties
  have hother : ∀ {name}, name ≠ partiesKey → body.find? name
      = ((ByName.find? name (namedParameters action.parameters)).map normalized).or
        (if hasPositional action.parameters then (ByName.find? name (stateFields state)).map normalized
          else none) := by
    intro name hkey
    have hname := get?_of_ne hparameters hstate hkey
    rw [h] at hname
    exact hname
  constructor
  case sorted =>
    rw [constructorBody_eq] at h
    rw [← Json.object.inj h]
    exact ByName.sorted_ofList _
  case stateParties =>
    intro parties hfound hfull
    exact hparties.trans (auditedParties?_of_state hfound hfull)
  case ownParties =>
    intro hempty
    exact hparties.trans (auditedParties?_of_empty hempty)
  case named =>
    intro name v hkey hname hfound
    rw [hother hkey, find?_namedParameters hkey hname, hfound]
    rfl
  case fields =>
    intro name hkey hleft hpositional hat
    rw [hother hkey, find?_namedParameters_of_left hleft, if_pos (hasPositional_iff.mpr hpositional),
      find?_stateFields, if_neg hat]
    rfl
  case others =>
    intro name hkey hleft hnothing
    rw [hother hkey, find?_namedParameters_of_left hleft]
    rcases hnothing with hnone | hat
    · rw [if_neg]
      · rfl
      · intro hpositional
        obtain ⟨parameter, hparameter, hname⟩ := hasPositional_iff.mp hpositional
        exact hnone parameter hparameter hname
    · rw [find?_stateFields, if_pos hat]
      simp

/-! ## What is sent -/

theorem all_constructions : All (fun r => ∃ token, r = (s.construction action).withBearer token)
    (construct s action) := by
  rw [construct_eq]
  refine All.bind (all_callWith fun token _ => ⟨token, rfl⟩) fun _ _ _ => all_pure _

/-- The parties of a log are those that its first entry is constructed with. -/
theorem logParties_eq {log : Log} {first : Entry} {rest : List Entry} (hentries : log.entries = first :: rest)
    (hparameters : ByName.Sorted first.action.parameters) (hstate : log.state.WellFormed) :
    logParties log = (((constructorBody first.action log.state).get? partiesKey).map partyNames).getD [] := by
  rw [get?_partiesKey hparameters hstate, logParties, hentries]
  dsimp only
  cases auditedParties? log.state first.action.parameters <;> rfl

/-- **Every constructor call carries the body that belongs to its entry and the final state**, whoever replies.
If the entry is the first one of the log, the parties in it are those whose tokens are tried before the others. -/
theorem constructor_sent (s : Setup) (e : Entry) (hentry : e.WellFormed) (hstate : s.finalState.WellFormed) :
    ∃ body, Constructs e.action.parameters s.finalState body
      ∧ (∀ sent constructed, Generates (construct s e.action) sent constructed → sent ≠ []
        ∧ ∀ exchanged ∈ sent, ∃ token, exchanged.1 = ⟨.post, s.route ++ "/", token, .json (.object body)⟩)
      ∧ ∀ baseUrl log tokens hints rest, setup baseUrl log tokens hints = .ok s → log.entries = e :: rest →
        s.finalState = log.state
          ∧ ∀ hint, s.attempts hint = tokens.order hint (((body.find? partiesKey).map partyNames).getD []) := by
  have hparameters : ByName.Sorted e.action.parameters := (Json.wellFormed_object.mp hentry).1
  obtain ⟨body, hbody⟩ : ∃ body, constructorBody e.action s.finalState = .object body := ⟨_, constructorBody_eq _ _⟩
  refine ⟨body, constructs_of_eq hparameters hstate hbody, ?_, ?_⟩
  · intro sent constructed h
    refine ⟨(begins_construct h).ne_nil, ?_⟩
    intro exchanged hexchanged
    obtain ⟨token, hrequest⟩ := all_constructions.of_generates h exchanged hexchanged
    refine ⟨token, ?_⟩
    rw [hrequest, Setup.construction, hbody]
    rfl
  · intro baseUrl log tokens hints rest hsetup hentries
    obtain ⟨hfinal, htokens, hparties⟩ := setup_eq_ok hsetup
    refine ⟨hfinal, ?_⟩
    intro hint
    rw [hfinal] at hbody hstate
    rw [Setup.attempts, htokens, hparties, logParties_eq hentries hparameters hstate, hbody]
    rfl

end

/-- A construction with one parameter that has a name and one that has none. -/
def mixedEntry : Entry :=
  ⟨"urn:npl:localhost/npl/demo/Iou/00000000-0000-0000-0000-000000000000#0", "",
    ⟨none, "Iou", [("@parties", .object [("payee", .null)]), ("arg0", .string "7"), ("note", .string "5")]⟩,
    [], "", none, .blank⟩

/-- A log with this construction, and a state that shares a name with it and has no parties. -/
def mixedLog : Log :=
  ⟨[mixedEntry], .object [("@id", .string "1"), ("@parties", .object []), ("amount", .string "10"),
    ("note", .string "lost")]⟩

/-- The parties are those of the entry, and the token of the payee is the first to be tried. The parameter with
a name wins over the field of this name, and the other field takes the place of the parameter without one. -/
theorem constructor_sent_mixed :
    ∃ s body, setup "http://localhost" mixedLog ⟨[("issuer", "i"), ("payee", "p")], none⟩ .none = .ok s
      ∧ Constructs mixedEntry.action.parameters mixedLog.state body
      ∧ body.find? "@parties" = some (.object [("payee", .null)])
      ∧ body.find? "note" = some (.number (.int 5)) ∧ body.find? "amount" = some (.number (.int 10))
      ∧ body.find? "arg0" = none ∧ body.find? "@id" = none
      ∧ s.attempts none = [⟨"payee", some "p"⟩, ⟨"issuer", some "i"⟩] := by
  obtain ⟨identity, hidentity⟩ : ∃ identity, Identity.parse mixedEntry.id = .ok identity := ⟨_, rfl⟩
  obtain ⟨s, hsetup, hfinal⟩ : ∃ s, setup "http://localhost" mixedLog ⟨[("issuer", "i"), ("payee", "p")], none⟩ .none
      = .ok s ∧ s.finalState = mixedLog.state := ⟨_, setup_eq _ rfl hidentity _ _, rfl⟩
  have hentry : mixedEntry.WellFormed := by
    refine Json.wellFormed_object.mpr ⟨?_, ?_⟩
    · unfold ByName.Sorted
      decide
    · simp [mixedEntry, Json.WellFormed, Json.WellFormedMembers, ByName.Sorted]
  have hstate : mixedLog.state.WellFormed := by
    refine Json.wellFormed_object.mpr ⟨?_, ?_⟩
    · unfold ByName.Sorted
      decide
    · simp [Json.WellFormed, Json.WellFormedMembers, ByName.Sorted]
  obtain ⟨body, hbody, _, hattempts⟩ := constructor_sent s mixedEntry hentry (hfinal ▸ hstate)
  rw [hfinal] at hbody
  have hparties : body.find? "@parties" = some (.object [("payee", .null)]) := by
    apply hbody.ownParties
    intro parties hfound
    obtain rfl := Option.some.inj hfound
    simp
  have hpositional : Positional "arg0" := isPositional_iff.mp (by decide)
  refine ⟨s, body, hsetup, hbody, hparties, ?_, ?_, ?_, ?_, ?_⟩
  · exact hbody.named "note" _ (by decide) (isPositional_eq_false.mp (by decide)) rfl
  · exact hbody.fields "amount" (by decide) (Or.inr rfl) ⟨"arg0", by decide, hpositional⟩ (by decide)
  · exact hbody.fields "arg0" (by decide) (Or.inl hpositional) ⟨"arg0", by decide, hpositional⟩ (by decide)
  · exact hbody.others "@id" (by decide) (Or.inr rfl) (Or.inr (by decide))
  · have hnames : ((body.find? partiesKey).map partyNames).getD [] = ["payee"] := by
      rw [show body.find? partiesKey = _ from hparties]
      simp [partyNames]
    rw [(hattempts _ _ _ _ [] hsetup rfl).2 none, hnames]
    decide +kernel

end AuditTrail.Replay
