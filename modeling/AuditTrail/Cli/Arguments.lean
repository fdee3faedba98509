import AuditTrail.Text.Pieces

/-!
# The command line

The arguments of the program are read from left to right, and the first thing that decides the
outcome ends the reading: a request for help or for the version answers what came before it was
valid, whatever follows. Every option may be given once. `Command.parse?` is `none` for a command
line that cannot be used.
-/

namespace AuditTrail.Cli

/-- The options that take a value. -/
inductive ValueOption
  | audit
  | sources
  | didScheme
  | didHostOverride
  | config
  | replayBaseUrl
  deriving DecidableEq, Repr

namespace ValueOption

/-- All options that take a value. -/
def all : List ValueOption := [.audit, .sources, .didScheme, .didHostOverride, .config, .replayBaseUrl]

/-- An option as it is written. -/
def name : ValueOption → String
  | .audit => "--audit"
  | .sources => "--sources"
  | .didScheme => "--did-scheme"
  | .didHostOverride => "--did-host-override"
  | .config => "--config"
  | .replayBaseUrl => "--replay-base-url"

/-- Whether an option takes a text for its value. A path is never empty, and there are two schemes. -/
def accepts : ValueOption → String → Bool
  | .sources, value => !value.isEmpty
  | .config, value => !value.isEmpty
  | .didScheme, value => value == "http" || value == "https"
  | _, _ => true

end ValueOption

/-- The options that stand alone. -/
inductive Switch
  | failFast
  | json
  | noReplay
  | verbose
  deriving DecidableEq, Repr

namespace Switch

/-- All options that stand alone. -/
def all : List Switch := [.failFast, .json, .noReplay, .verbose]

/-- An option as it is written. -/
def name : Switch → String
  | .failFast => "--fail-fast"
  | .json => "--json"
  | .noReplay => "--no-replay"
  | .verbose => "--verbose"

end Switch

/-- The arguments of a verification. -/
structure VerifyArguments where
  /-- The file or URL of the audit document. -/
  audit : String
  sources : Option String
  didScheme : Option String
  didHostOverride : Option String
  config : Option String
  replayBaseUrl : Option String
  failFast : Bool
  json : Bool
  noReplay : Bool
  verbose : Bool
  deriving DecidableEq, Repr

/-- The options read so far. -/
structure Given where
  values : List (ValueOption × String)
  switches : List Switch
  deriving DecidableEq, Repr

namespace Given

/-- No options. -/
def nothing : Given := ⟨[], []⟩

/-- Adds an option with its value, which it must accept, unless it has been given. -/
def addValue? (given : Given) (option : ValueOption) (value : String) : Option Given :=
  if (given.values.lookup option).isSome || !option.accepts value then none
  else some { given with values := (option, value) :: given.values }

/-- Adds an option that stands alone, unless it has been given. -/
def addSwitch? (given : Given) (switch : Switch) : Option Given :=
  if given.switches.contains switch then none
  else some { given with switches := switch :: given.switches }

/-- The arguments that options make up; the audit document must be among them. -/
def arguments? (given : Given) : Option VerifyArguments := do
  let value (option : ValueOption) := given.values.lookup option
  let has (switch : Switch) := given.switches.contains switch
  let audit ← value .audit
  some ⟨audit, value .sources, value .didScheme, value .didHostOverride, value .config,
    value .replayBaseUrl, has .failFast, has .json, has .noReplay, has .verbose⟩

end Given

/-- What the program is asked to do. -/
inductive Command
  | verify (arguments : VerifyArguments)
  | help
  | version
  deriving DecidableEq, Repr

/-- Whether an argument is read as an option wherever it stands: a hyphen with something after it. -/
def isOptionLike (argument : String) : Bool :=
  match argument.toList with
  | '-' :: _ :: _ => true
  | _ => false

/-- Whether an argument asks for something by one letter, which more letters may follow. -/
def hasLetter (letter : Char) (argument : String) : Bool :=
  Text.startsWith ['-', letter] argument.toList

/-- An option and its value in one argument, with an equals sign between them. -/
def joinedValue? (argument : String) : Option (ValueOption × String) := do
  let (name, value) ← Text.cutAt? '=' argument.toList
  let option ← ValueOption.all.find? fun o => o.name.toList == name
  some (option, String.ofList value)

/-- Reads the arguments of a verification. -/
def readVerify? (given : Given) : List String → Option Command
  | [] => given.arguments?.map .verify
  | argument :: rest =>
    if argument = "--" then
      if rest.isEmpty then given.arguments?.map .verify else none
    else if argument = "--help" || hasLetter 'h' argument then some .help
    else
      match Switch.all.find? fun s => s.name == argument with
      | some switch => (given.addSwitch? switch).bind fun given => readVerify? given rest
      | none =>
        match joinedValue? argument with
        | some (option, value) =>
          (given.addValue? option value).bind fun given => readVerify? given rest
        | none =>
          match ValueOption.all.find? fun o => o.name == argument, rest with
          | some option, value :: rest =>
            if isOptionLike value then none
            else (given.addValue? option value).bind fun given => readVerify? given rest
          | _, _ => none

/-- The words that may follow a request for help. -/
def helpTopics : List (List String) := [[], ["verify"], ["help"]]

/-- Reads a command line. -/
def Command.parse? : List String → Option Command
  | [] => none
  | argument :: rest =>
    if argument = "verify" then readVerify? .nothing rest
    else if argument = "help" then if helpTopics.contains rest then some .help else none
    else if argument = "--help" || hasLetter 'h' argument then some .help
    else if argument = "--version" || hasLetter 'V' argument then some .version
    else none

end AuditTrail.Cli
