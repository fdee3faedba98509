import AuditTrail.Cli.Run
import AuditTrail.Http.Client
import AuditTrail.Signature.Ed25519

/-!
# The program

The outer layer: it collects the files that a command line speaks of, and runs the program on them.
Nothing is sent to a network; every request fails as it does where there is no connection. Directories
are not listed, so hints come from sources that are a single file.
-/

open AuditTrail

/-- The names that lead to a path once its dots are resolved, which come from its text alone. -/
def placeOf (current : List String) (p : Path) : List String :=
  let start := if p.absolute then [] else current.reverse
  (p.pieces.foldl (fun (names : List String) piece =>
    if Path.isIdle piece then names
    else if piece = ['.', '.'] then names.tail
    else String.ofList piece :: names) start).reverse

/-- The directories that a path passes, in order. -/
def passedBy (current : List String) (p : Path) : List (List String) :=
  (List.range p.pieces.length).map fun n => placeOf current { p with pieces := p.pieces.take n }

/-- Adds what is at a path, and the directories on the way there, to the files that a run can see. -/
def collect (w : Workspace) (p : Path) : IO Workspace := do
  let place := placeOf w.current p
  let withDirectories := (passedBy w.current p).foldl (fun t names =>
    FileTree.put .empty names t) w.root
  try
    let content ← IO.FS.readBinFile p.text
    pure { w with root := FileTree.put (.file content.data.toList) place withDirectories }
  catch e =>
    match e with
    | .noFileOrDirectory .. => pure w
    | _ => pure { w with root := FileTree.put .empty place withDirectories }

/-- The paths that a verification may look at. -/
def pathsOf (a : Cli.VerifyArguments) : List Path :=
  let audit := if Log.isRemote a.audit then [] else [Path.ofString a.audit]
  let config := (a.config.map Path.ofString).toList
  let sources := match a.sources with
    | some sources =>
      let p := Path.ofString sources
      p :: p.ancestors.flatMap fun directory => LocalConfig.fileNames.map directory.child
    | none => []
  audit ++ config ++ sources

/-- The files that a command line speaks of. -/
def workspaceFor (arguments : List String) : IO Workspace := do
  let current := (Path.ofString (toString (← IO.currentDir))).pieces.map String.ofList
  let start : Workspace := ⟨FileTree.put .empty current .empty, current⟩
  match Cli.Command.parse? arguments with
  | some (.verify a) => (pathsOf a).foldlM collect start
  | _ => pure start

/-- Runs the program on the files, the environment and the command line it was started with. -/
def main (arguments : List String) : IO UInt32 := do
  let w ← workspaceFor arguments
  let baseUrl ← IO.getEnv Settings.baseUrlVariable
  let environment (name : String) := if name = Settings.baseUrlVariable then baseUrl else none
  let program := Cli.run Ed25519.scheme w environment arguments
  let output ← program.run (Http.Client.disconnected (pure false)).send
  IO.print output.stdout
  IO.eprint output.stderr
  pure (UInt32.ofNat output.exitCode)
