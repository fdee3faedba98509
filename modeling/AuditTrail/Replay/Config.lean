import AuditTrail.ByName
import AuditTrail.Failure
import AuditTrail.Files.Tree
import AuditTrail.Json.Record
import AuditTrail.Text.Blank
import AuditTrail.Yaml.Node

/-!
# Credentials for a replay

The section `local` of a file `npl.yml` or `npl.yaml` next to the protocol sources, or in a directory
above them, says who the parties are to the runtime. A scalar is read as the text it has, and only a
field that may be missing takes a null for missing.
-/

namespace AuditTrail

open Json.Tree (required? orElse? nullable? text?)

/-- The name and password of a party. -/
structure Credentials where
  username : String
  password : String
  deriving DecidableEq, Repr

/-- What is configured for replays. -/
structure LocalConfig where
  /-- Where passwords are exchanged for tokens. -/
  authUrl : Option String
  clientId : String
  clientSecret : Option String
  parties : ByName Credentials
  /-- Tokens that need no exchange. -/
  tokens : ByName String
  /-- The name and password, or the token, of all parties together. -/
  username : Option String
  password : Option String
  token : Option String
  deriving DecidableEq, Repr

namespace LocalConfig

/-- What holds without any configuration. -/
def default : LocalConfig := ⟨none, "app", none, [], [], none, none, none⟩

/-- The fields of the section, in order. -/
def names : List String :=
  ["authUrl", "clientId", "clientSecret", "parties", "tokens", "username", "password", "token"]

/-! ## As JSON -/

/-- Reads a name and password. -/
def credentialsOfTree? (room : Nat) (t : Json.Tree) : Option Credentials := do
  let (_, field) ← t.record? ["username", "password"] room
  let username ← required? text? (field "username")
  let password ← required? text? (field "password")
  some ⟨username, password⟩

/-- Reads a table. -/
def tableOfTree? {α : Type} (read : (room : Nat) → Json.Tree → Option α) (room : Nat)
    (t : Json.Tree) : Option (ByName α) :=
  match t with
  | .object members => do
    let room ← Json.Tree.enter? room
    let entries ← members.mapM fun (name, t) => do
      let name ← name
      let a ← read room t
      some (name, a)
    some (ByName.ofList entries)
  | _ => none

/-- Reads the section. -/
def ofTree? (room : Nat) (t : Json.Tree) : Option LocalConfig := do
  let (room, field) ← t.record? names room
  let authUrl ← orElse? none (nullable? text?) (field "authUrl")
  let clientId ← orElse? default.clientId text? (field "clientId")
  let clientSecret ← orElse? none (nullable? text?) (field "clientSecret")
  let parties ← orElse? [] (tableOfTree? credentialsOfTree? room) (field "parties")
  let tokens ← orElse? [] (tableOfTree? (fun _ => text?) room) (field "tokens")
  let username ← orElse? none (nullable? text?) (field "username")
  let password ← orElse? none (nullable? text?) (field "password")
  let token ← orElse? none (nullable? text?) (field "token")
  some ⟨authUrl, clientId, clientSecret, parties, tokens, username, password, token⟩

end LocalConfig

/-! ## As YAML -/

namespace Yaml.Document

/-- The words for null. -/
def nullWords : List String := ["null", "Null", "NULL", "~"]

/-- The tag of null. -/
def nullTag : String := "tag:yaml.org,2002:null"

/-- The text of a scalar. -/
def text? (d : Document) (n : Node) : Option String :=
  match d.deref n with
  | .scalar _ _ text => some text
  | _ => none

/-- The text of a scalar, or nothing for a null. -/
def textOrNull? (d : Document) (n : Node) : Option (Option String) :=
  match d.deref n with
  | .scalar tag plain text =>
    if !plain then some (some text)
    else if tag = some nullTag then if nullWords.contains text then some none else none
    else if tag.isSome then some (some text)
    else if text.isEmpty || nullWords.contains text then some none
    else some (some text)
  | _ => none

/-- The entries of a mapping, by the texts of their keys. A node left out has none. -/
def entries? (d : Document) (n : Node) : Option (List (String × Node)) :=
  match d.deref n with
  | .mapping entries => entries.mapM fun (key, value) => (d.text? key).map fun k => (k, value)
  | .scalar _ true "" => some []
  | _ => none

/-- What a record holds for its fields, none of which may be given twice. -/
def fields? (d : Document) (names : List String) (n : Node) : Option (String → Option Node) := do
  let entries ← d.entries? n
  if names.all fun name => (entries.countP fun e => e.1 == name) ≤ 1 then
    some fun name => entries.lookup name
  else none

/-- Reads a field that has a default. -/
def field? {α : Type} (default : α) (read : Node → Option α) : Option Node → Option α
  | some n => read n
  | none => some default

/-- Reads a table; of several entries with one key the last stays. -/
def table? {α : Type} (d : Document) (read : Node → Option α) (n : Node) : Option (ByName α) := do
  let entries ← (← d.entries? n).mapM fun (name, n) => (read n).map fun a => (name, a)
  some (ByName.ofList entries)

/-- Reads a name and password. -/
def credentials? (d : Document) (n : Node) : Option Credentials := do
  let field ← d.fields? ["username", "password"] n
  let username ← d.text? (← field "username")
  let password ← d.text? (← field "password")
  some ⟨username, password⟩

/-- Reads the section. -/
def localConfig? (d : Document) (n : Node) : Option LocalConfig := do
  let field ← d.fields? LocalConfig.names n
  let authUrl ← field? none d.textOrNull? (field "authUrl")
  let clientId ← field? LocalConfig.default.clientId d.text? (field "clientId")
  let clientSecret ← field? none d.textOrNull? (field "clientSecret")
  let parties ← field? [] (d.table? d.credentials?) (field "parties")
  let tokens ← field? [] (d.table? d.text?) (field "tokens")
  let username ← field? none d.textOrNull? (field "username")
  let password ← field? none d.textOrNull? (field "password")
  let token ← field? none d.textOrNull? (field "token")
  some ⟨authUrl, clientId, clientSecret, parties, tokens, username, password, token⟩

/-- Reads the section out of a whole document. -/
def localSection? (d : Document) : Option LocalConfig := do
  let field ← d.fields? ["local"] d.root
  field? .default d.localConfig? (field "local")

end Yaml.Document

namespace LocalConfig

/-- Reads the text of a configuration file, given the path it came from. A text of white space only
configures nothing. -/
def parse (path text : String) : Except Failure LocalConfig :=
  if Text.isWhite text then .ok default
  else
    match (Yaml.Document.read? text).bind (·.localSection?) with
    | some config => .ok config
    | none => .error (.config ("failed to parse '" ++ path ++ "': not a configuration"))

/-- The names of configuration files, in the order they are looked for. -/
def fileNames : List String := ["npl.yml", "npl.yaml"]

/-- The configuration file in a directory. -/
def findIn? (w : Workspace) (directory : Path) : Option Path :=
  (fileNames.map directory.child).find? w.isFile

/-- The configuration file for the sources at a path: the first one in their directory or in one of
its ancestors, which are those of the path as it is written. -/
def find? (w : Workspace) (sources : Path) : Option Path := do
  let start ← if w.isFile sources then sources.parent? else some sources
  start.ancestors.findSome? (findIn? w)

/-- The configuration for the sources at a path. -/
def load (w : Workspace) (sources : Path) : Except Failure LocalConfig :=
  match find? w sources with
  | none => .ok default
  | some path =>
    match w.readText path with
    | .error f => .error (.config ("failed to read '" ++ path.text ++ "': " ++ f.reason))
    | .ok text => parse path.text text

end LocalConfig

end AuditTrail
