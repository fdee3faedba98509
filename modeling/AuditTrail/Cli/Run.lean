import AuditTrail.Cli.Arguments
import AuditTrail.Json.Pretty
import AuditTrail.Log.Source
import AuditTrail.Replay.Run
import AuditTrail.Settings
import AuditTrail.Verification

/-!
# Runs of the program

A run takes the files it can see, the environment and the command line, and gives an exit code with
what is printed. The exit code tells three things apart: a log that verified, one that did not, and a
run that came to no verdict.
-/

namespace AuditTrail.Cli

open Http (Exchange)

/-- The settings of a run: the defaults, under the settings file, under the environment, under the
options of the command line. -/
def settingsOf (w : Workspace) (environment : String → Option String) (a : VerifyArguments) :
    Except Failure Settings := do
  let s ← match a.config with
    | some path => Settings.load w path
    | none => .ok .default
  let s := s.underEnvironment environment
  let s : Settings := {
    failFast := s.failFast || a.failFast
    did := ⟨a.didScheme.getD s.did.scheme, a.didHostOverride <|> s.did.hostOverride⟩
    http := s.http
    replay := ⟨s.replay.enabled && !a.noReplay, a.replayBaseUrl.getD s.replay.baseUrl⟩ }
  match s.check with
  | .ok () => .ok s
  | .error f => .error f.failure

/-- The stages under given settings. -/
def checksOf (scheme : Signature.Scheme) (w : Workspace) (s : Settings) :
    Checks (StateT Did.Cache Exchange) :=
  let checks := Checks.ofResolver scheme (Did.resolver s.did)
  if s.replay.enabled then
    checks.withReplay fun log sources => StateT.lift (Replay.replay w s.replay.baseUrl log sources)
  else checks

/-- What a run is asked for under given settings. -/
def optionsOf (s : Settings) (a : VerifyArguments) : VerifyOptions :=
  ⟨s.failFast, if s.replay.enabled then a.sources.map .ofString else none⟩

/-- Loads the audit document and verifies it. -/
def verify (scheme : Signature.Scheme) (w : Workspace) (environment : String → Option String)
    (a : VerifyArguments) : Exchange (Except Failure Verdict) :=
  match settingsOf w environment a with
  | .error f => pure (.error f)
  | .ok s => do
    match ← Log.load w a.audit with
    | .error f => pure (.error f)
    | .ok log =>
      let (verdict, _) ← ((checksOf scheme w s).verify (optionsOf s a) log).run []
      pure (.ok verdict)

/-! ## What is printed -/

/-- What a run leaves: its exit code and what it prints. -/
structure Output where
  exitCode : Nat
  stdout : String
  stderr : String
  deriving DecidableEq, Repr

/-- The exit code of a run. -/
def exitCodeOf : Except Failure Verdict → Nat
  | .ok verdict => if verdict.success then 0 else 65
  | .error _ => 1

/-- A verdict for readers. -/
def verdictText (v : Verdict) : String :=
  if v.success then "✓ verified\n"
  else
    let count := v.findings.length
    "✗ verification failed (" ++ Number.decimal count ++ " error" ++ (if count = 1 then "" else "s")
      ++ ")\n" ++ String.join (v.findings.map fun f => "  " ++ f.display ++ "\n")

/-- What a verification prints. -/
def Output.ofOutcome (json : Bool) (outcome : Except Failure Verdict) : Output :=
  match outcome with
  | .ok v => ⟨exitCodeOf outcome, if json then v.tree.pretty ++ "\n" else verdictText v, ""⟩
  | .error f => ⟨exitCodeOf outcome, "", "error: " ++ f.message ++ "\n"⟩

/-- What the program is called and which one it is. -/
def versionText : String := "trail 0.1.0\n"

/-- How the program is called. -/
def usageText : String :=
  "Usage: trail verify --audit <FILE_OR_URL> [OPTIONS]\n\nFor more information, try '--help'.\n"

/-- What the program does and how it is called. -/
def helpText : String :=
  "Verify NPL protocol audit trails\n\n"
  ++ "Usage: trail verify --audit <FILE_OR_URL> [OPTIONS]\n\n"
  ++ "Options:\n"
  ++ "  --audit <FILE_OR_URL>       Audit JSON file path or http(s) URL\n"
  ++ "  --sources <PATH>            Directory of NPL sources; enables replay\n"
  ++ "  --did-scheme <SCHEME>       Scheme used to fetch did:web documents: http, https\n"
  ++ "  --did-host-override <HOST>  Fetch every DID document from this host instead\n"
  ++ "  --fail-fast                 Stop after the first stage that reports an error\n"
  ++ "  --json                      Print the result as JSON\n"
  ++ "  --no-replay                 Skip replay even when sources are given\n"
  ++ "  --config <FILE>             TOML settings file\n"
  ++ "  --replay-base-url <URL>     Base URL of the runtime used for replay\n"
  ++ "  --verbose                   Debug logging on stderr\n"
  ++ "  -h, --help                  Print help\n"
  ++ "  -V, --version               Print version\n"

/-- Runs the program. -/
def run (scheme : Signature.Scheme) (w : Workspace) (environment : String → Option String)
    (arguments : List String) : Exchange Output :=
  match Command.parse? arguments with
  | none => pure ⟨1, "", usageText⟩
  | some .help => pure ⟨0, helpText, ""⟩
  | some .version => pure ⟨0, versionText, ""⟩
  | some (.verify a) => do
    let outcome ← verify scheme w environment a
    pure (.ofOutcome a.json outcome)

end AuditTrail.Cli
