import AuditTrail.Files.Path
import AuditTrail.Text.Bytes

/-!
# Directory trees

The files that a run can see, as a value: what is read from them depends on nothing else. Paths are
followed the way an operating system does, so that `..` leads to the directory that holds the current
one.
-/

namespace AuditTrail

/-- A file or a directory. -/
inductive FileTree
  | file (content : Bytes)
  | directory (entries : List (String × FileTree))

/-- What keeps a file from being read. -/
inductive FileFault
  | notFound
  | notADirectory
  | isADirectory
  /-- The content is not UTF-8. -/
  | notText
  deriving DecidableEq, Repr

/-- The text of a fault. -/
def FileFault.reason : FileFault → String
  | .notFound => "No such file or directory (os error 2)"
  | .notADirectory => "Not a directory (os error 20)"
  | .isADirectory => "Is a directory (os error 21)"
  | .notText => "stream did not contain valid UTF-8"

namespace FileTree

/-- A directory without entries. -/
def empty : FileTree := .directory []

/-- Puts an entry in the place of a name. -/
def putEntry (name : String) (t : FileTree) (entries : List (String × FileTree)) :
    List (String × FileTree) :=
  if entries.any fun e => e.1 == name then
    entries.map fun e => if e.1 = name then (name, t) else e
  else entries ++ [(name, t)]

/-- Puts something at a place given by names, making the directories on the way. What is there is
replaced, but a directory is not replaced by an empty one. -/
def put (item : FileTree) : (names : List String) → FileTree → FileTree
  | [], old =>
    match item, old with
    | .directory [], .directory entries => .directory entries
    | _, _ => item
  | name :: rest, old =>
    let entries := match old with
      | .directory entries => entries
      | .file _ => []
    .directory (putEntry name (put item rest ((entries.lookup name).getD empty)) entries)

/-- Follows pieces of a path from a directory whose enclosing directories are given, the innermost
first. Returns what is there with the directories around it. -/
def follow : (pieces : List (List Char)) → FileTree → List FileTree →
    Except FileFault (FileTree × List FileTree)
  | [], t, around => .ok (t, around)
  | piece :: rest, t, around =>
    match t with
    | .file _ => .error .notADirectory
    | .directory entries =>
      if Path.isIdle piece then follow rest t around
      else if piece = ['.', '.'] then
        match around with
        | parent :: others => follow rest parent others
        | [] => follow rest t []
      else
        match entries.lookup (String.ofList piece) with
        | some inner => follow rest inner (t :: around)
        | none => .error .notFound

end FileTree

/-- The files that a run can see, and the directory it works in. -/
structure Workspace where
  root : FileTree
  /-- The names that lead from the root to the working directory. -/
  current : List String

namespace Workspace

/-- What is at a path. The empty path leads nowhere. -/
def at? (w : Workspace) (p : Path) : Except FileFault FileTree := do
  if !p.absolute && p.pieces.all List.isEmpty then .error .notFound
  else
    let (start, around) ←
      if p.absolute then .ok (w.root, [])
      else w.root.follow (w.current.map String.toList) []
    let (found, _) ← start.follow p.pieces around
    .ok found

/-- Whether a path leads to a file. -/
def isFile (w : Workspace) (p : Path) : Bool :=
  match w.at? p with
  | .ok (.file _) => true
  | _ => false

/-- The text of the file at a path. -/
def readText (w : Workspace) (p : Path) : Except FileFault String := do
  match ← w.at? p with
  | .directory _ => .error .isADirectory
  | .file content =>
    match content.toString? with
    | some text => .ok text
    | none => .error .notText

end Workspace

end AuditTrail
