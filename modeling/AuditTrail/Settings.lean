import AuditTrail.Did.Web
import AuditTrail.Failure
import AuditTrail.Files.Tree
import AuditTrail.Json.Record
import AuditTrail.Text.Blank
import AuditTrail.Toml.Read

/-!
# Settings

What a verification can be told to do differently. Every setting has a default. A settings file in
TOML changes some of them, one variable of the environment another, and `Settings.check` says whether
the result can be used.
-/

namespace AuditTrail

open Json.Tree (orElse? nullable? text? bool? natural?)

/-- Limits on the time that requests may take, in seconds. -/
structure HttpSettings where
  connectTimeout : Nat
  timeout : Nat
  deriving DecidableEq, Repr

/-- Where and whether to replay. -/
structure ReplaySettings where
  enabled : Bool
  baseUrl : String
  deriving DecidableEq, Repr

/-- The settings of a verification. -/
structure Settings where
  /-- Whether the first stage with a finding is the last one. -/
  failFast : Bool
  did : Did.Settings
  http : HttpSettings
  replay : ReplaySettings
  deriving DecidableEq, Repr

/-- The defaults of the DID settings. -/
def Did.Settings.default : Did.Settings := ⟨"https", none⟩

/-- The defaults of the HTTP settings. -/
def HttpSettings.default : HttpSettings := ⟨10, 30⟩

/-- The defaults of the replay settings. -/
def ReplaySettings.default : ReplaySettings := ⟨true, "http://localhost:12000"⟩

namespace Settings

/-- The defaults. -/
def default : Settings := ⟨false, .default, .default, .default⟩

/-! ## Field names -/

/-- The sections, in order. -/
def names : List String := ["fail_fast", "did", "http", "replay"]

/-- The fields of the DID settings. -/
def didNames : List String := ["scheme", "host_override"]

/-- The fields of the HTTP settings. -/
def httpNames : List String := ["connect_timeout_secs", "timeout_secs"]

/-- The fields of the replay settings. -/
def replayNames : List String := ["enabled", "base_url"]

/-! ## As JSON -/

/-- The tree of settings. -/
def tree (s : Settings) : Json.Tree :=
  .ofFields [
    ("fail_fast", .bool s.failFast),
    ("did", .ofFields [
      ("scheme", .ofText s.did.scheme), ("host_override", .ofText? s.did.hostOverride)]),
    ("http", .ofFields [
      ("connect_timeout_secs", .ofNat s.http.connectTimeout),
      ("timeout_secs", .ofNat s.http.timeout)]),
    ("replay", .ofFields [
      ("enabled", .bool s.replay.enabled), ("base_url", .ofText s.replay.baseUrl)])]

/-- Reads the DID settings. -/
def didOfTree? (room : Nat) (t : Json.Tree) : Option Did.Settings := do
  let (_, field) ← t.record? didNames room
  let scheme ← orElse? Did.Settings.default.scheme text? (field "scheme")
  let hostOverride ← orElse? none (nullable? text?) (field "host_override")
  some ⟨scheme, hostOverride⟩

/-- Reads the HTTP settings. -/
def httpOfTree? (room : Nat) (t : Json.Tree) : Option HttpSettings := do
  let (_, field) ← t.record? httpNames room
  let connectTimeout ←
    orElse? HttpSettings.default.connectTimeout natural? (field "connect_timeout_secs")
  let timeout ← orElse? HttpSettings.default.timeout natural? (field "timeout_secs")
  some ⟨connectTimeout, timeout⟩

/-- Reads the replay settings. -/
def replayOfTree? (room : Nat) (t : Json.Tree) : Option ReplaySettings := do
  let (_, field) ← t.record? replayNames room
  let enabled ← orElse? ReplaySettings.default.enabled bool? (field "enabled")
  let baseUrl ← orElse? ReplaySettings.default.baseUrl text? (field "base_url")
  some ⟨enabled, baseUrl⟩

/-- Reads settings. -/
def ofTree? (room : Nat) (t : Json.Tree) : Option Settings := do
  let (room, field) ← t.record? names room
  let failFast ← orElse? default.failFast bool? (field "fail_fast")
  let did ← orElse? .default (didOfTree? room) (field "did")
  let http ← orElse? .default (httpOfTree? room) (field "http")
  let replay ← orElse? .default (replayOfTree? room) (field "replay")
  some ⟨failFast, did, http, replay⟩

/-! ## As TOML -/

/-- Reads a field of a TOML table that has a default. -/
def tomlField? {α : Type} (default : α) (read : Toml.Value → Option α) :
    Option Toml.Value → Option α
  | some v => read v
  | none => some default

/-- Reads the DID settings. -/
def didOfToml? (v : Toml.Value) : Option Did.Settings := do
  let field ← v.fields? didNames
  let scheme ← tomlField? Did.Settings.default.scheme Toml.Value.text? (field "scheme")
  let hostOverride ← tomlField? none (fun v => v.text?.map some) (field "host_override")
  some ⟨scheme, hostOverride⟩

/-- Reads the HTTP settings. -/
def httpOfToml? (v : Toml.Value) : Option HttpSettings := do
  let field ← v.fields? httpNames
  let connectTimeout ← tomlField? HttpSettings.default.connectTimeout Toml.Value.natural?
    (field "connect_timeout_secs")
  let timeout ← tomlField? HttpSettings.default.timeout Toml.Value.natural? (field "timeout_secs")
  some ⟨connectTimeout, timeout⟩

/-- Reads the replay settings. -/
def replayOfToml? (v : Toml.Value) : Option ReplaySettings := do
  let field ← v.fields? replayNames
  let enabled ← tomlField? ReplaySettings.default.enabled Toml.Value.bool? (field "enabled")
  let baseUrl ← tomlField? ReplaySettings.default.baseUrl Toml.Value.text? (field "base_url")
  some ⟨enabled, baseUrl⟩

/-- Reads settings from the entries of a document. -/
def ofEntries? (entries : List (String × Toml.Value)) : Option Settings := do
  let field (name : String) := entries.lookup name
  let failFast ← tomlField? default.failFast Toml.Value.bool? (field "fail_fast")
  let did ← tomlField? .default didOfToml? (field "did")
  let http ← tomlField? .default httpOfToml? (field "http")
  let replay ← tomlField? .default replayOfToml? (field "replay")
  some ⟨failFast, did, http, replay⟩

/-! ## Checking -/

/-- What keeps settings from being used. -/
inductive Fault
  | malformed
  | scheme (found : String)
  | zeroTimeout
  | noBaseUrl
  deriving DecidableEq, Repr

/-- The text of a fault. -/
def Fault.reason : Fault → String
  | .malformed => "failed to parse settings TOML: not a document of settings"
  | .scheme found => "did.scheme must be 'http' or 'https', got '" ++ found ++ "'"
  | .zeroTimeout => "http timeouts must be greater than zero"
  | .noBaseUrl => "replay.base_url must not be empty"

/-- A fault as the failure it causes. -/
def Fault.failure (f : Fault) : Failure := .config f.reason

/-- Whether settings can be used. -/
def check (s : Settings) : Except Fault Unit :=
  if s.did.scheme ≠ "http" ∧ s.did.scheme ≠ "https" then .error (.scheme s.did.scheme)
  else if s.http.timeout = 0 ∨ s.http.connectTimeout = 0 then .error .zeroTimeout
  else if Text.isWhite s.replay.baseUrl then .error .noBaseUrl
  else .ok ()

/-- Reads the text of a settings file and checks the result. -/
def ofToml (text : String) : Except Fault Settings :=
  match (Toml.read? text).bind ofEntries? with
  | none => .error .malformed
  | some s =>
    match s.check with
    | .ok () => .ok s
    | .error f => .error f

/-- Loads a settings file. -/
def load (w : Workspace) (path : String) : Except Failure Settings :=
  match w.readText (.ofString path) with
  | .error f => .error (.config ("failed to read settings file '" ++ path ++ "': " ++ f.reason))
  | .ok text => (ofToml text).mapError Fault.failure

/-- The variable that names another runtime to replay against. -/
def baseUrlVariable : String := "NPL_REPLAY_BASE_URL"

/-- Settings under an environment; a variable that holds white space only counts as unset. -/
def underEnvironment (s : Settings) (environment : String → Option String) : Settings :=
  match environment baseUrlVariable with
  | some url => if Text.isWhite url then s else { s with replay := { s.replay with baseUrl := url } }
  | none => s

/-- Whether the value of a switch means that it is on. -/
def isOn (value : String) : Bool :=
  ["1", "true", "yes", "on"].contains
    (String.ofList ((Text.trimmed value.toList).map Text.lowerAscii))

end Settings

end AuditTrail
