import AuditTrail.Proofs.ByName
import AuditTrail.Proofs.Http.Exchange
import AuditTrail.Replay.Tokens

/-!
# Which tokens are granted

Which names and passwords are exchanged, and in which order, is in the configuration; no reply changes it
(`LocalConfig.exchanges`). So the requests of any run are known beforehand, and a reply has a place among
them. It matters only to the party at that place: a party with a name and password has the token in its own
reply, or else the one that is configured for it, and this is said without a word about the other replies
(`Resolved`).

> However the replies come about, there are tokens in the end, each party's by its own reply
> (`tokens_resolved`).
-/

namespace AuditTrail

open Http (Exchange Request Response Reply)
open Http.Exchange (Generates generates_against generates_bind generates_pure generates_send)

/-! ## Configurations -/

/-- The tables of a configuration are in order. -/
structure LocalConfig.Ordered (config : LocalConfig) : Prop where
  parties : ByName.Sorted config.parties
  tokens : ByName.Sorted config.tokens

theorem Yaml.Document.sorted_of_table? {α : Type} {d : Yaml.Document} {read : Yaml.Node → Option α}
    {n : Yaml.Node} {table : ByName α} (h : d.table? read n = some table) : ByName.Sorted table := by
  unfold Yaml.Document.table? at h
  simp only [Option.bind_eq_bind, Option.bind_eq_some_iff, Option.some.injEq] at h
  obtain ⟨_, _, entries, _, rfl⟩ := h
  exact ByName.sorted_ofList entries

theorem Yaml.Document.sorted_of_field? {α : Type} {d : Yaml.Document} {read : Yaml.Node → Option α}
    {n : Option Yaml.Node} {table : ByName α} (h : Yaml.Document.field? [] (d.table? read) n = some table) :
    ByName.Sorted table := by
  cases n with
  | none =>
    obtain rfl : [] = table := Option.some.inj h
    exact List.Pairwise.nil
  | some n => exact sorted_of_table? h

namespace LocalConfig

theorem ordered_default : Ordered default := ⟨List.Pairwise.nil, List.Pairwise.nil⟩

theorem ordered_of_localConfig? {d : Yaml.Document} {n : Yaml.Node} {config : LocalConfig}
    (h : d.localConfig? n = some config) : config.Ordered := by
  unfold Yaml.Document.localConfig? at h
  simp only [Option.bind_eq_bind, Option.bind_eq_some_iff, Option.some.injEq] at h
  obtain ⟨_, _, _, _, _, _, _, _, parties, hparties, tokens, htokens, _, _, _, _, _, _, rfl⟩ := h
  exact ⟨Yaml.Document.sorted_of_field? hparties, Yaml.Document.sorted_of_field? htokens⟩

/-- The tables of a configuration that was read are in order. -/
theorem ordered_of_parse {path text : String} {config : LocalConfig} (h : parse path text = .ok config) :
    config.Ordered := by
  unfold parse at h
  split at h
  · obtain rfl := Except.ok.inj h
    exact ordered_default
  · split at h
    · rename_i hread
      obtain rfl := Except.ok.inj h
      obtain ⟨d, _, hsection⟩ := Option.bind_eq_some_iff.mp hread
      unfold Yaml.Document.localSection? at hsection
      obtain ⟨field, _, hlocal⟩ := Option.bind_eq_some_iff.mp hsection
      cases hn : field "local" with
      | none =>
        rw [hn] at hlocal
        obtain rfl := Option.some.inj hlocal
        exact ordered_default
      | some n =>
        rw [hn] at hlocal
        exact ordered_of_localConfig? hlocal
    · cases h

theorem ordered_of_load {w : Workspace} {sources : Path} {config : LocalConfig}
    (h : load w sources = .ok config) : config.Ordered := by
  unfold load at h
  split at h
  · obtain rfl := Except.ok.inj h
    exact ordered_default
  · split at h
    · cases h
    · exact ordered_of_parse h

/-! ## What is exchanged -/

/-- The name and password of all parties together, if they are to be exchanged. -/
def shared? (config : LocalConfig) : Option Credentials :=
  match config.token, config.username, config.password with
  | none, some username, some password => some ⟨username, password⟩
  | _, _, _ => none

/-- The requests that exchange names and passwords; none if it is not known where to. -/
def forms (config : LocalConfig) (whos : List Credentials) : List Request :=
  match config.authUrl with
  | some url => whos.map fun who => Request.postForm url (Replay.grantForm config who)
  | none => []

/-- All requests for tokens: those of the parties in the order of their names, and the one of all parties
together. -/
def exchanges (config : LocalConfig) : List Request :=
  config.forms (config.parties.map Prod.snd ++ config.shared?.toList)

variable {config : LocalConfig}

theorem forms_of_url {url : String} (h : config.authUrl = some url) (whos : List Credentials) :
    config.forms whos = whos.map fun who => Request.postForm url (Replay.grantForm config who) := by
  rw [forms, h]

theorem forms_of_no_url (h : config.authUrl = none) (whos : List Credentials) : config.forms whos = [] := by
  rw [forms, h]

/-- The request of a party stands at its place. -/
theorem exchanges_party {url : String} (hurl : config.authUrl = some url) {i : Nat} {party : String}
    {who : Credentials} (h : config.parties[i]? = some (party, who)) :
    config.exchanges[i]? = some (Request.postForm url (Replay.grantForm config who)) := by
  have hmap : (config.parties.map Prod.snd)[i]? = some who := by
    rw [List.getElem?_map, h]
    rfl
  obtain ⟨hbound, _⟩ := List.getElem?_eq_some_iff.mp hmap
  rw [exchanges, forms_of_url hurl, List.getElem?_map, List.getElem?_append_left hbound, hmap]
  rfl

/-- The request for all parties together comes after those of the parties. -/
theorem exchanges_shared {url : String} (hurl : config.authUrl = some url) {who : Credentials}
    (h : config.shared? = some who) : config.exchanges[config.parties.length]?
      = some (Request.postForm url (Replay.grantForm config who)) := by
  rw [exchanges, forms_of_url hurl, List.getElem?_map, List.getElem?_append_right (by simp), h]
  simp

theorem exchanges_unshared (h : config.shared? = none) : config.exchanges.length ≤ config.parties.length := by
  rw [exchanges, h]
  unfold forms
  split <;> simp

theorem token_of_shared? {who : Credentials} (h : config.shared? = some who) : config.token = none := by
  unfold shared? at h
  split at h
  · assumption
  · exact absurd h (by simp)

end LocalConfig

namespace Replay

open LocalConfig (forms_of_url forms_of_no_url)

/-- Whether a reply grants a token: a response that accepts the request and has a record with the token in
its body. -/
def Granted (reply : Reply) (token : String) : Prop :=
  ∃ response, reply = .ok response ∧ 200 ≤ response.status ∧ response.status < 300
    ∧ Json.readAs? tokenOfTree? response.body = some token

theorem grantedToken?_eq_some {url : String} {reply : Reply} {token : String} :
    grantedToken? url reply = some token ↔ Granted reply token := by
  unfold Granted
  cases reply with
  | error f => simp [grantedToken?]
  | ok response =>
    simp only [grantedToken?, Response.isSuccess, Response.record, Except.ok.injEq, decide_eq_true_eq]
    by_cases hstatus : 200 ≤ response.status ∧ response.status < 300
    · rw [if_pos hstatus]
      cases hread : Json.readAs? tokenOfTree? response.body with
      | none => simp [Except.toOption, hread]
      | some found => simp [Except.toOption, hread, hstatus]
    · rw [if_neg hstatus]
      simp only [reduceCtorEq, false_iff]
      rintro ⟨_, rfl, hleast, hmost, _⟩
      exact hstatus ⟨hleast, hmost⟩

/-- Whether a token is the one that a reply grants, or the one to fall back on if it grants none. -/
def GrantedOr (fallback : Option String) (reply : Reply) (found : Option String) : Prop :=
  (∀ token, Granted reply token → found = some token)
    ∧ ((∀ token, ¬ Granted reply token) → found = fallback)

theorem grantedOr_or (url : String) (reply : Reply) (fallback : Option String) :
    GrantedOr fallback reply ((grantedToken? url reply).or fallback) := by
  constructor
  · intro token hgranted
    rw [grantedToken?_eq_some.mpr hgranted]
    rfl
  · intro hrefused
    have hnone : grantedToken? url reply = none := by
      apply Option.eq_none_iff_forall_ne_some.mpr
      intro token htoken
      exact hrefused token (grantedToken?_eq_some.mp htoken)
    rw [hnone]
    rfl

theorem GrantedOr.unique {fallback found found' : Option String} {reply : Reply}
    (h : GrantedOr fallback reply found) (h' : GrantedOr fallback reply found') : found = found' := by
  by_cases hgranted : ∃ token, Granted reply token
  · obtain ⟨token, hgranted⟩ := hgranted
    rw [h.1 token hgranted, h'.1 token hgranted]
  · have hrefused := not_exists.mp hgranted
    rw [h.2 hrefused, h'.2 hrefused]

/-- What the tokens of a configuration are, after its requests and the replies to them. -/
structure Resolved (config : LocalConfig) (sent : List (Request × Reply)) (tokens : PartyTokens) : Prop where
  requests : sent.map Prod.fst = config.exchanges
  sorted : ByName.Sorted tokens.byParty
  /-- A party that exchanges a name and password has the token in its own reply, or else its configured one. -/
  exchanged : ∀ (i : Nat) party who url, config.parties[i]? = some (party, who) → config.authUrl = some url →
    ∃ reply, sent[i]? = some (Request.postForm url (grantForm config who), reply)
      ∧ GrantedOr (config.tokens.find? party) reply (tokens.byParty.find? party)
  /-- Any other party has its configured token. -/
  configured : ∀ party, config.authUrl = none ∨ party ∉ config.parties.names →
    tokens.byParty.find? party = config.tokens.find? party
  static : ∀ token, config.token = some token → tokens.legacy = some token
  /-- The name and password of all parties together come last. -/
  shared : ∀ who url, config.shared? = some who → config.authUrl = some url →
    ∃ reply, sent[config.parties.length]? = some (Request.postForm url (grantForm config who), reply)
      ∧ GrantedOr none reply tokens.legacy
  unshared : config.token = none → config.authUrl = none ∨ config.shared? = none → tokens.legacy = none

/-! ## Runs -/

section

variable {config : LocalConfig} {sent : List (Request × Reply)} {url : String}

theorem grantEach_of_no_url (h : config.authUrl = none) (parties : List (String × Credentials)) :
    grantEach config parties = pure [] := by
  induction parties with
  | nil => rfl
  | cons p rest ih =>
    rw [grantEach, grant, h, ih]
    rfl

theorem legacyToken_eq (config : LocalConfig) : legacyToken config
    = match config.shared? with
      | some who => grant config who
      | none => pure config.token := by
  unfold legacyToken LocalConfig.shared?
  cases config.token with
  | some token => rfl
  | none => cases config.username <;> cases config.password <;> rfl

/-- The tokens that replies grant to those with the names. -/
def grants (url : String) (names : List String) (replies : List Reply) : ByName String :=
  (names.zip replies).filterMap fun (party, reply) => (grantedToken? url reply).map fun token => (party, token)

theorem generates_grant (hurl : config.authUrl = some url) {who : Credentials} {token : Option String}
    (h : Generates (grant config who) sent token) :
    ∃ reply, sent = [(Request.postForm url (grantForm config who), reply)] ∧ token = grantedToken? url reply := by
  rw [grant, hurl] at h
  obtain ⟨before, after, reply, rfl, hsend, hpure⟩ := generates_bind.mp h
  obtain ⟨rfl, rfl⟩ := generates_pure.mp hpure
  exact ⟨reply, by rw [generates_send.mp hsend, List.append_nil], rfl⟩

/-- The parties are asked for one after the other, and each reply is the one of its party. -/
theorem generates_grantEach (hurl : config.authUrl = some url) {parties : List (String × Credentials)}
    {granted : List (String × String)} (h : Generates (grantEach config parties) sent granted) :
    sent.map Prod.fst = config.forms (parties.map Prod.snd)
      ∧ granted = grants url (parties.map Prod.fst) (sent.map Prod.snd) := by
  -- One party takes one request from the front of what was sent, so names and replies stay side by side.
  induction parties generalizing sent granted with
  | nil =>
    obtain ⟨rfl, rfl⟩ := generates_pure.mp h
    exact ⟨(forms_of_url hurl []).symm, rfl⟩
  | cons p rest ih =>
    obtain ⟨party, who⟩ := p
    obtain ⟨first, others, token, rfl, hfirst, hothers⟩ := generates_bind.mp h
    obtain ⟨others, _, more, rfl, hmore, hpure⟩ := generates_bind.mp hothers
    obtain ⟨rfl, rfl⟩ := generates_pure.mp hpure
    obtain ⟨reply, rfl, rfl⟩ := generates_grant hurl hfirst
    obtain ⟨hrequests, rfl⟩ := ih hmore
    rw [forms_of_url hurl] at hrequests ⊢
    refine ⟨by simp [hrequests], ?_⟩
    cases hgranted : grantedToken? url reply with
    | none => simp [grants, hgranted]
    | some token => simp [grants, hgranted]

theorem generates_legacyToken (hurl : config.authUrl = some url) {token : Option String}
    (h : Generates (legacyToken config) sent token) :
    sent.map Prod.fst = config.forms config.shared?.toList
      ∧ token = config.token.or ((sent.map Prod.snd).head?.bind (grantedToken? url)) := by
  rw [forms_of_url hurl]
  rw [legacyToken_eq] at h
  cases hshared : config.shared? with
  | some who =>
    rw [hshared] at h
    obtain ⟨reply, rfl, rfl⟩ := generates_grant hurl h
    rw [LocalConfig.token_of_shared? hshared]
    simp
  | none =>
    rw [hshared] at h
    obtain ⟨rfl, rfl⟩ := generates_pure.mp h
    simp

theorem grant_of_no_url (h : config.authUrl = none) (who : Credentials) : grant config who = pure none := by
  rw [grant, h]

/-- Without a URL nothing is sent, and the tokens are the configured ones. -/
theorem resolve_of_no_url (h : config.authUrl = none) :
    PartyTokens.resolve config = pure ⟨ByName.ofList config.tokens, config.token⟩ := by
  have hlegacy : legacyToken config = pure config.token := by
    rw [legacyToken_eq]
    cases hshared : config.shared? with
    | none => rfl
    | some who =>
      rw [LocalConfig.token_of_shared? hshared]
      exact grant_of_no_url h who
  rw [PartyTokens.resolve, grantEach_of_no_url h, hlegacy]
  show (pure ⟨ByName.ofList (config.tokens ++ []), config.token⟩ : Exchange PartyTokens) = _
  rw [List.append_nil]

/-- With a URL there is a reply for each party, and after these the one for all parties together. -/
theorem generates_resolve (hurl : config.authUrl = some url) {tokens : PartyTokens}
    (h : Generates (PartyTokens.resolve config) sent tokens) :
    sent.map Prod.fst = config.exchanges
      ∧ tokens.byParty
        = ByName.ofList (config.tokens ++ grants url (config.parties.map Prod.fst) (sent.map Prod.snd))
      ∧ tokens.legacy
        = config.token.or ((sent.map Prod.snd)[config.parties.length]?.bind (grantedToken? url)) := by
  obtain ⟨first, others, granted, rfl, hfirst, hothers⟩ := generates_bind.mp h
  obtain ⟨last, _, legacy, rfl, hlast, hpure⟩ := generates_bind.mp hothers
  obtain ⟨rfl, rfl⟩ := generates_pure.mp hpure
  obtain ⟨hrequests, rfl⟩ := generates_grantEach hurl hfirst
  obtain ⟨hrequest, rfl⟩ := generates_legacyToken hurl hlast
  have hlength : config.parties.length = first.length := by
    have hlengths := congrArg List.length hrequests
    rw [forms_of_url hurl] at hlengths
    simpa using hlengths.symm
  rw [List.append_nil, List.map_append, List.map_append]
  refine ⟨?_, ?_, ?_⟩
  · rw [hrequests, hrequest, LocalConfig.exchanges, forms_of_url hurl, forms_of_url hurl, forms_of_url hurl,
      List.map_append]
  · -- The last reply has no party beside it.
    have hzip : (config.parties.map Prod.fst).zip (first.map Prod.snd ++ last.map Prod.snd)
        = (config.parties.map Prod.fst).zip (first.map Prod.snd) := by
      have happend := @List.zip_append _ _ (config.parties.map Prod.fst) [] (first.map Prod.snd)
        (last.map Prod.snd) (by simpa using hlength)
      simpa using happend
    rw [grants, grants, hzip]
  · rw [List.getElem?_append_right (by simp [hlength]), List.length_map, hlength, Nat.sub_self,
      List.head?_eq_getElem?]

/-! ## Tokens -/

theorem sorted_replies (hordered : config.Ordered) {replies : List Reply}
    (hlength : config.parties.length ≤ replies.length) :
    ByName.Sorted ((config.parties.map Prod.fst).zip replies) := by
  have hnames : ((config.parties.map Prod.fst).zip replies).map Prod.fst = config.parties.map Prod.fst :=
    List.map_fst_zip (by simpa using hlength)
  have hsorted : (config.parties.map Prod.fst).Pairwise (· < ·) := List.pairwise_map.mpr hordered.parties
  rw [← hnames] at hsorted
  exact List.pairwise_map.mp hsorted

/-- A party has the token in its own reply, or else the one configured for it. -/
theorem find?_byParty (hordered : config.Ordered) {replies : List Reply}
    (hlength : config.parties.length ≤ replies.length) (party : String) :
    ByName.find? party (ByName.ofList (config.tokens ++ grants url (config.parties.map Prod.fst) replies))
      = ((ByName.find? party ((config.parties.map Prod.fst).zip replies)).bind (grantedToken? url)).or
        (config.tokens.find? party) := by
  have hzip := sorted_replies hordered hlength
  have hgrants : ByName.Sorted (grants url (config.parties.map Prod.fst) replies) :=
    ByName.sorted_filterMap (f := fun _ => grantedToken? url) hzip
  -- Granted tokens are put into the table after the configured ones, so they are found first.
  rw [ByName.find?_ofList_append, ByName.ofList_eq_self hgrants, ByName.ofList_eq_self hordered.tokens, grants,
    ByName.find?_filterMap (fun _ => grantedToken? url) party hzip]

theorem exists_reply (h : sent.map Prod.fst = config.exchanges) {i : Nat} {request : Request}
    (hrequest : config.exchanges[i]? = some request) : ∃ reply, sent[i]? = some (request, reply) := by
  rw [← h, List.getElem?_map] at hrequest
  obtain ⟨⟨_, reply⟩, hsent, rfl⟩ := Option.map_eq_some_iff.mp hrequest
  exact ⟨reply, hsent⟩

theorem length_le_of_requests (hurl : config.authUrl = some url)
    (h : sent.map Prod.fst = config.exchanges) : config.parties.length ≤ sent.length := by
  have hlength := congrArg List.length h
  rw [LocalConfig.exchanges, forms_of_url hurl] at hlength
  simp only [List.length_map, List.length_append] at hlength
  omega

/-- The reply to a party stands at its place. -/
theorem find?_zip_reply (hordered : config.Ordered) (hlength : config.parties.length ≤ sent.length) {i : Nat}
    {party : String} {who : Credentials} (hparty : config.parties[i]? = some (party, who)) {request : Request}
    {reply : Reply} (hreply : sent[i]? = some (request, reply)) :
    ByName.find? party ((config.parties.map Prod.fst).zip (sent.map Prod.snd)) = some reply := by
  have hcount : config.parties.length ≤ (sent.map Prod.snd).length := by simpa using hlength
  apply ByName.find?_of_mem (sorted_replies hordered hcount)
  apply List.mem_of_getElem? (i := i)
  rw [List.getElem?_zip_eq_some, List.getElem?_map, List.getElem?_map, hparty, hreply]
  exact ⟨rfl, rfl⟩

theorem resolved_of_no_url (hordered : config.Ordered) (hurl : config.authUrl = none) :
    Resolved config [] ⟨config.tokens, config.token⟩ := by
  constructor
  case requests => exact (forms_of_no_url hurl _).symm
  case sorted => exact hordered.tokens
  case exchanged =>
    intro i party who url _ hsome
    exact absurd (hurl.symm.trans hsome) (by simp)
  case configured => exact fun _ _ => rfl
  case static => exact fun _ htoken => htoken
  case shared =>
    intro who url _ hsome
    exact absurd (hurl.symm.trans hsome) (by simp)
  case unshared => exact fun hnone _ => hnone

theorem resolved_of_url (hordered : config.Ordered) (hurl : config.authUrl = some url) {tokens : PartyTokens}
    (h : Generates (PartyTokens.resolve config) sent tokens) : Resolved config sent tokens := by
  obtain ⟨hrequests, hbyParty, hlegacy⟩ := generates_resolve hurl h
  have hlength := length_le_of_requests hurl hrequests
  have hfind : ∀ party, tokens.byParty.find? party
      = ((ByName.find? party ((config.parties.map Prod.fst).zip (sent.map Prod.snd))).bind
        (grantedToken? url)).or (config.tokens.find? party) := by
    intro party
    rw [hbyParty]
    exact find?_byParty hordered (by simpa using hlength) party
  constructor
  case requests => exact hrequests
  case sorted =>
    rw [hbyParty]
    exact ByName.sorted_ofList _
  case exchanged =>
    intro i party who url' hparty hsome
    obtain rfl : url = url' := Option.some.inj (hurl.symm.trans hsome)
    obtain ⟨reply, hreply⟩ := exists_reply hrequests (LocalConfig.exchanges_party hurl hparty)
    refine ⟨reply, hreply, ?_⟩
    rw [hfind, find?_zip_reply hordered hlength hparty hreply]
    exact grantedOr_or url reply _
  case configured =>
    intro party hother
    have hfresh : party ∉ config.parties.names := by
      rcases hother with hnone | hfresh
      · exact absurd (hurl.symm.trans hnone) (by simp)
      · exact hfresh
    have hown : ByName.find? party ((config.parties.map Prod.fst).zip (sent.map Prod.snd)) = none := by
      apply ByName.find?_eq_none.mpr
      unfold ByName.names
      rw [List.map_fst_zip (by simpa using hlength)]
      exact hfresh
    rw [hfind, hown]
    rfl
  case static =>
    intro token htoken
    rw [hlegacy, htoken]
    rfl
  case shared =>
    intro who url' hshared hsome
    obtain rfl : url = url' := Option.some.inj (hurl.symm.trans hsome)
    obtain ⟨reply, hreply⟩ := exists_reply hrequests (LocalConfig.exchanges_shared hurl hshared)
    refine ⟨reply, hreply, ?_⟩
    rw [hlegacy, LocalConfig.token_of_shared? hshared, List.getElem?_map, hreply]
    show GrantedOr none reply (grantedToken? url reply)
    rw [← Option.or_none (o := grantedToken? url reply)]
    exact grantedOr_or url reply none
  case unshared =>
    intro hnone hunshared
    have hshared : config.shared? = none := by
      rcases hunshared with hno | hshared
      · exact absurd (hurl.symm.trans hno) (by simp)
      · exact hshared
    have hlast : (sent.map Prod.snd)[config.parties.length]? = none := by
      have hcount := congrArg List.length hrequests
      have hmost := LocalConfig.exchanges_unshared hshared
      apply List.getElem?_eq_none
      simp only [List.length_map] at hcount ⊢
      omega
    rw [hlegacy, hnone, hlast]
    rfl

/-- **Every run gives each party the token that is due to it by its own reply.** -/
theorem resolved_of_generates (hordered : config.Ordered) {tokens : PartyTokens}
    (h : Generates (PartyTokens.resolve config) sent tokens) : Resolved config sent tokens := by
  cases hurl : config.authUrl with
  | some url => exact resolved_of_url hordered hurl h
  | none =>
    rw [resolve_of_no_url hurl, ByName.ofList_eq_self hordered.tokens] at h
    obtain ⟨rfl, rfl⟩ := generates_pure.mp h
    exact resolved_of_no_url hordered hurl

/-! ## Isolation -/

/-- In two runs of one configuration a party with the same reply has the same token, whatever the other replies
are. -/
theorem Resolved.find?_eq {sent' : List (Request × Reply)} {tokens tokens' : PartyTokens}
    (h : Resolved config sent tokens) (h' : Resolved config sent' tokens') {i : Nat} {party : String}
    {who : Credentials} (hparty : config.parties[i]? = some (party, who)) (hsame : sent'[i]? = sent[i]?) :
    tokens'.byParty.find? party = tokens.byParty.find? party := by
  cases hurl : config.authUrl with
  | none => rw [h.configured party (Or.inl hurl), h'.configured party (Or.inl hurl)]
  | some url =>
    obtain ⟨reply, hreply, hfound⟩ := h.exchanged i party who url hparty hurl
    obtain ⟨reply', hreply', hfound'⟩ := h'.exchanged i party who url hparty hurl
    rw [hsame, hreply] at hreply'
    cases hreply'
    exact hfound'.unique hfound

/-- The token of all parties together depends on the last reply only. -/
theorem Resolved.legacy_eq {sent' : List (Request × Reply)} {tokens tokens' : PartyTokens}
    (h : Resolved config sent tokens) (h' : Resolved config sent' tokens')
    (hsame : sent'[config.parties.length]? = sent[config.parties.length]?) : tokens'.legacy = tokens.legacy := by
  cases htoken : config.token with
  | some token => rw [h.static token htoken, h'.static token htoken]
  | none =>
    cases hurl : config.authUrl with
    | none => rw [h.unshared htoken (Or.inl hurl), h'.unshared htoken (Or.inl hurl)]
    | some url =>
      cases hshared : config.shared? with
      | none => rw [h.unshared htoken (Or.inr hshared), h'.unshared htoken (Or.inr hshared)]
      | some who =>
        obtain ⟨reply, hreply, hfound⟩ := h.shared who url hshared hurl
        obtain ⟨reply', hreply', hfound'⟩ := h'.shared who url hshared hurl
        rw [hsame, hreply] at hreply'
        cases hreply'
        exact hfound'.unique hfound

end

/-- Two parties with names and passwords, two with tokens, and a name and password for all of them. -/
def twoLogins : LocalConfig :=
  ⟨some "https://auth.example.com/token", "app", some "secret", [("alice", ⟨"al", "pa"⟩), ("bob", ⟨"bo", "pb"⟩)],
    [("bob", "token-of-bob"), ("carol", "token-of-carol")], some "all", some "pass", none⟩

/-- A server that gives its replies one after the other, and when there are no more of them is not reached. -/
def scripted (replies : List Reply) : Nat → Request → Reply × Nat :=
  fun count request => (replies[count]?.getD (.error (.transport request.url "connection refused")), count + 1)

end Replay

end AuditTrail
